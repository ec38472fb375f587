import Relayly.Relay.Migrations
import Mathlib.Data.List.Forall2

/-!
# Migrations that are stopped

The first script can be taken up again wherever it was stopped. The second and the third begin with
an `ALTER TABLE` that fails the second time, and their versions are recorded by a statement of its
own: an `Open` that is stopped in between leaves a file that no later `Open` gets past
(`openDB_iff_stopsOutside`).
-/

namespace Relayly.Database

open Migrate (scriptStates)

variable {k : ℕ} {t : Devices} {indexes : Finset Index} {c old : Content}

/-! ## The scripts, statement by statement -/

theorem exec_createIndex {index : Index} (h : index.column ∈ t.columns) :
    exec ⟨some t, indexes⟩ (.createIndex index) = some ⟨some t, insert index indexes⟩ := by
  by_cases hmem : index ∈ indexes
  · simp [exec, hmem, Finset.insert_eq_of_mem hmem]
  · simp [exec, hmem, h]

theorem scriptStates_migration1SQL (h : t.columns = columnsAt 0) :
    scriptStates exec migration1SQL ⟨some t, indexes⟩ =
      ([⟨some t, indexes⟩, ⟨some t, insert .pairToken indexes⟩,
        ⟨some t, insert .pairedWith (insert .pairToken indexes)⟩],
        some ⟨some t, insert .pairedWith (insert .pairToken indexes)⟩) := by
  have hcreate (columns : List Column) :
      exec ⟨some t, indexes⟩ (.createDevices columns) = some ⟨some t, indexes⟩ := rfl
  have htoken : Index.pairToken.column ∈ t.columns := by rw [h]; decide
  have hpaired : Index.pairedWith.column ∈ t.columns := by rw [h]; decide
  simp only [migration1SQL, scriptStates, hcreate, exec_createIndex htoken, exec_createIndex hpaired]

/-- A row with the column that the second script adds. -/
def row2 (row : Values) : Values := Function.update row .expiresAt none

theorem scriptStates_migration2SQL (h : t.columns = columnsAt 1) :
    scriptStates exec migration2SQL ⟨some t, indexes⟩ =
      ([⟨some ⟨columnsAt 2, t.rows.map row2⟩, indexes⟩],
        some ⟨some ⟨columnsAt 2, t.rows.map row2⟩, indexes⟩) := by
  obtain ⟨columns, rows⟩ := t
  obtain rfl : columns = columnsAt 1 := h
  rfl

/-- A row with the renamed token. -/
def renamed (row : Values) : Values := Function.update row .deviceToken (row .pairToken)

/-- A row with the renamed token and the column that the third script adds. -/
def widened (row : Values) : Values := Function.update (renamed row) .staticKey none

/-- A row as the third script leaves it. -/
def row3 (row : Values) : Values := copyPublicKey (widened row)

theorem scriptStates_migration3SQL (h : t.columns = columnsAt 2) :
    scriptStates exec migration3SQL ⟨some t, indexes⟩ =
      ([⟨some ⟨(columnsAt 3).dropLast, t.rows.map renamed⟩, indexes⟩,
        ⟨some ⟨columnsAt 3, t.rows.map widened⟩, indexes⟩,
        ⟨some ⟨columnsAt 3, t.rows.map row3⟩, indexes⟩,
        ⟨some ⟨columnsAt 3, t.rows.map row3⟩, indexes.erase .pairToken⟩,
        ⟨some ⟨columnsAt 3, t.rows.map row3⟩, insert .deviceToken (indexes.erase .pairToken)⟩],
        some ⟨some ⟨columnsAt 3, t.rows.map row3⟩,
          insert .deviceToken (indexes.erase .pairToken)⟩) := by
  obtain ⟨columns, rows⟩ := t
  obtain rfl : columns = columnsAt 2 := h
  have hrename : exec ⟨some ⟨columnsAt 2, rows⟩, indexes⟩ (.renameColumn .pairToken .deviceToken) =
      some ⟨some ⟨(columnsAt 3).dropLast, rows.map renamed⟩, indexes⟩ := rfl
  have hadd : exec ⟨some ⟨(columnsAt 3).dropLast, rows.map renamed⟩, indexes⟩ (.addColumn .staticKey) =
      some ⟨some ⟨columnsAt 3, rows.map widened⟩, indexes⟩ := by
    show some _ = some _
    rw [List.map_map]
    rfl
  have hcopy : exec ⟨some ⟨columnsAt 3, rows.map widened⟩, indexes⟩ .copyPublicKey =
      some ⟨some ⟨columnsAt 3, rows.map row3⟩, indexes⟩ := by
    show some _ = some _
    rw [List.map_map]
    rfl
  have hdrop : exec ⟨some ⟨columnsAt 3, rows.map row3⟩, indexes⟩ (.dropIndex .pairToken) =
      some ⟨some ⟨columnsAt 3, rows.map row3⟩, indexes.erase .pairToken⟩ := rfl
  have htoken : Index.deviceToken.column ∈ columnsAt 3 := by decide
  simp only [migration3SQL, scriptStates, hrename, hadd, hcopy, hdrop,
    exec_createIndex (t := ⟨columnsAt 3, rows.map row3⟩) htoken]

theorem migration2SQL_fails {columns : List Column} (rows : List Values) (h : .expiresAt ∈ columns) :
    scriptStates exec migration2SQL ⟨some ⟨columns, rows⟩, indexes⟩ = ([], none) := by
  simp [migration2SQL, scriptStates, exec, h]

theorem migration3SQL_fails {columns : List Column} (rows : List Values) (h : .pairToken ∉ columns) :
    scriptStates exec migration3SQL ⟨some ⟨columns, rows⟩, indexes⟩ = ([], none) := by
  simp [migration3SQL, scriptStates, exec, h]

/-- From version 1 on there is the table, with every index. -/
theorem HasSchema.table (h : HasSchema k c) (hk : 0 < k) :
    ∃ t : Devices, c = ⟨some t, indexesAt k⟩ ∧ t.columns = columnsAt k := by
  obtain ⟨_ | t, indexes⟩ := c
  · exact absurd h.1 hk.ne'
  · exact ⟨t, congrArg (Content.mk _) (h.2.2 hk), h.1⟩

/-- Before version 1 the table may still have to be made, with no row. -/
theorem HasSchema.table_or_none (h : HasSchema 0 c) :
    ∃ t indexes, t.columns = columnsAt 0 ∧ indexes ⊆ indexesAt 0 ∧ t.rows = c.rows ∧
      scriptStates exec migration1SQL c = scriptStates exec migration1SQL ⟨some t, indexes⟩ := by
  obtain ⟨_ | t, indexes⟩ := c
  · obtain rfl : indexes = ∅ := h.2
    exact ⟨⟨columnsAt 0, []⟩, ∅, rfl, by simp, rfl, rfl⟩
  · exact ⟨t, indexes, h.1, h.2.1, rfl, rfl⟩

theorem HasSchema.migration1SQL (h : HasSchema 0 c) :
    ∃ c', (scriptStates exec migration1SQL c).2 = some c' ∧ HasSchema 1 c' ∧ c'.rows = c.rows := by
  obtain ⟨t, indexes, hcols, hidx, hrows, hstates⟩ := h.table_or_none
  rw [hstates, scriptStates_migration1SQL hcols]
  have hall : insert Index.pairedWith (insert .pairToken indexes) = indexesAt 1 := by
    refine Finset.Subset.antisymm ?_ ?_
    · exact Finset.insert_subset (by decide) (Finset.insert_subset (by decide) hidx)
    · intro index hindex
      simp only [indexesAt, Finset.mem_insert, Finset.mem_singleton] at hindex
      rcases hindex with rfl | rfl <;> simp
  exact ⟨_, rfl, ⟨hcols, hall.le, fun _ => hall⟩, hrows⟩

theorem HasSchema.migration2SQL (h : HasSchema 1 c) :
    ∃ c', (scriptStates exec migration2SQL c).2 = some c' ∧ HasSchema 2 c' ∧
      c'.rows = c.rows.map row2 := by
  obtain ⟨t, rfl, hcols⟩ := h.table Nat.one_pos
  rw [scriptStates_migration2SQL hcols]
  exact ⟨_, rfl, ⟨rfl, Finset.Subset.refl _, fun _ => rfl⟩, rfl⟩

theorem HasSchema.migration3SQL (h : HasSchema 2 c) :
    ∃ c', (scriptStates exec migration3SQL c).2 = some c' ∧ HasSchema 3 c' ∧
      c'.rows = c.rows.map row3 := by
  obtain ⟨t, rfl, hcols⟩ := h.table Nat.two_pos
  rw [scriptStates_migration3SQL hcols]
  have hidx : insert Index.deviceToken ((indexesAt 2).erase .pairToken) = indexesAt 3 := by decide
  exact ⟨_, rfl, ⟨rfl, hidx.le, fun _ => hidx⟩, rfl⟩

/-! ## The rows -/

/-- The columns of `old` under their names at version `k`. -/
def Covers (k : ℕ) (old : Content) : Prop := ∀ col ∈ old.columns, nameAt k col ∈ columnsAt k

theorem nameAt_of_lt {col : Column} (hk : k < 3) : nameAt k col = col :=
  if_neg fun h => absurd h.1 (by omega)

theorem nameAt_three_of_ne {col : Column} (h : col ≠ .pairToken) : nameAt 3 col = col :=
  if_neg fun h' => h h'.2

theorem Covers.one (h : Covers 0 old) : Covers 1 old := h

theorem Covers.two (h : Covers 1 old) : Covers 2 old := fun col hcol =>
  (by decide : columnsAt 1 ⊆ columnsAt 2) (h col hcol)

theorem Covers.three (h : Covers 2 old) : Covers 3 old := fun col hcol => by
  have hmem : col ∈ columnsAt 2 := h col hcol
  by_cases htoken : col = .pairToken
  · subst htoken
    decide
  · rw [nameAt_three_of_ne htoken]
    exact (by decide : ∀ col ∈ columnsAt 2, col ≠ .pairToken → col ∈ columnsAt 3) col hmem htoken

/-- A step from version `k` that keeps the columns in each row keeps the rows. -/
theorem Kept.map {f : Values → Values} {new : Content}
    (hkept : Kept k old c) (hcovers : Covers k old) (hrows : new.rows = c.rows.map f)
    (hf : ∀ row col, nameAt k col ∈ columnsAt k → f row (nameAt (k + 1) col) = row (nameAt k col)) :
    Kept (k + 1) old new := by
  unfold Kept
  rw [hrows, List.forall₂_map_right_iff]
  refine hkept.imp fun row row' h col hcol => ?_
  rw [hf row' col (hcovers col hcol), h col hcol]

theorem row2_nameAt (row : Values) (col : Column) (h : nameAt 1 col ∈ columnsAt 1) :
    row2 row (nameAt 2 col) = row (nameAt 1 col) := by
  rw [nameAt_of_lt (by decide)] at h
  rw [nameAt_of_lt (by decide), nameAt_of_lt (by decide)]
  exact Function.update_of_ne (ne_of_mem_of_not_mem h (by decide)) ..

theorem copyPublicKey_of_ne (row : Values) {col : Column} (h : col ≠ .staticKey) :
    copyPublicKey row col = row col := by
  unfold copyPublicKey
  rcases row .publicKey with _ | key
  · rfl
  · show (if key = "" then row else Function.update row .staticKey (some key)) col = row col
    split
    · rfl
    · rw [Function.update_of_ne h]

theorem row3_nameAt (row : Values) (col : Column) (h : nameAt 2 col ∈ columnsAt 2) :
    row3 row (nameAt 3 col) = row (nameAt 2 col) := by
  rw [nameAt_of_lt (by decide)] at h
  rw [nameAt_of_lt (show 2 < 3 by decide)]
  by_cases htoken : col = .pairToken
  · subst htoken
    exact copyPublicKey_of_ne (widened row) (show Column.deviceToken ≠ .staticKey by decide)
  · have hstatic : col ≠ .staticKey := ne_of_mem_of_not_mem h (by decide)
    have hdevice : col ≠ .deviceToken := ne_of_mem_of_not_mem h (by decide)
    rw [nameAt_three_of_ne htoken, row3, copyPublicKey_of_ne _ hstatic, widened,
      Function.update_of_ne hstatic, renamed, Function.update_of_ne hdevice]

/-! ## The plan -/

/-- What the first `k` scripts leave behind of a file with the content `old`. -/
structure Ready (old : Content) (k : ℕ) (c : Content) : Prop where
  hasSchema : HasSchema k c
  covers : Covers k old
  kept : Kept k old c

/-- A script that can be taken up again. -/
def Resumable (version : ℕ) : Prop := version = 1

instance : DecidablePred Resumable := fun version => inferInstanceAs (Decidable (version = 1))

/-! The first script. -/

theorem Ready.runs_migration1SQL (h : Ready old 0 c) :
    ∃ c', (scriptStates exec migration1SQL c).2 = some c' ∧ Ready old 1 c' := by
  obtain ⟨c', hruns, hschema, hrows⟩ := h.hasSchema.migration1SQL
  have hkept : Kept 1 old c' := by
    unfold Kept
    rw [hrows]
    exact h.kept
  exact ⟨c', hruns, hschema, h.covers.one, hkept⟩

theorem Ready.resumes_migration1SQL (h : Ready old 0 c) :
    ∀ d ∈ (scriptStates exec migration1SQL c).1, Ready old 0 d := by
  obtain ⟨t, indexes, hcols, hidx, hrows, hstates⟩ := h.hasSchema.table_or_none
  rw [hstates, scriptStates_migration1SQL hcols]
  have hready {indexes' : Finset Index} (hidx' : indexes' ⊆ indexesAt 0) :
      Ready old 0 ⟨some t, indexes'⟩ := by
    refine ⟨⟨hcols, hidx', fun h0 => absurd h0 (lt_irrefl 0)⟩, h.covers, ?_⟩
    show List.Forall₂ _ old.rows t.rows
    rw [hrows]
    exact h.kept
  have htoken : insert .pairToken indexes ⊆ indexesAt 0 :=
    Finset.insert_subset (by decide) hidx
  intro d hd
  simp only [List.mem_cons, List.not_mem_nil, or_false] at hd
  rcases hd with rfl | rfl | rfl
  · exact hready hidx
  · exact hready htoken
  · exact hready (Finset.insert_subset (by decide) htoken)

/-! The second script. -/

theorem Ready.runs_migration2SQL (h : Ready old 1 c) :
    ∃ c', (scriptStates exec migration2SQL c).2 = some c' ∧ Ready old 2 c' := by
  obtain ⟨c', hruns, hschema, hrows⟩ := h.hasSchema.migration2SQL
  exact ⟨c', hruns, hschema, h.covers.two, h.kept.map h.covers hrows row2_nameAt⟩

theorem Ready.fails_migration2SQL (h : Ready old 1 c) :
    ∀ d ∈ (scriptStates exec migration2SQL c).1, scriptStates exec migration2SQL d = ([], none) := by
  obtain ⟨t, rfl, hcols⟩ := h.hasSchema.table Nat.one_pos
  rw [scriptStates_migration2SQL hcols]
  intro d hd
  obtain rfl := List.mem_singleton.1 hd
  exact migration2SQL_fails _ (by decide)

/-! The third script. -/

theorem Ready.runs_migration3SQL (h : Ready old 2 c) :
    ∃ c', (scriptStates exec migration3SQL c).2 = some c' ∧ Ready old 3 c' := by
  obtain ⟨c', hruns, hschema, hrows⟩ := h.hasSchema.migration3SQL
  exact ⟨c', hruns, hschema, h.covers.three, h.kept.map h.covers hrows row3_nameAt⟩

theorem Ready.fails_migration3SQL (h : Ready old 2 c) :
    ∀ d ∈ (scriptStates exec migration3SQL c).1, scriptStates exec migration3SQL d = ([], none) := by
  obtain ⟨t, rfl, hcols⟩ := h.hasSchema.table Nat.two_pos
  rw [scriptStates_migration3SQL hcols]
  intro d hd
  simp only [List.mem_cons, List.not_mem_nil, or_false] at hd
  rcases hd with rfl | rfl | rfl | rfl | rfl <;> exact migration3SQL_fails _ (by decide)

theorem plan (old : Content) : Migrate.Plan exec migrations Resumable (Ready old) where
  nodup := by decide
  runs {k m c} hm h := by
    match k with
    | 0 => obtain rfl := Option.some.inj hm; exact h.runs_migration1SQL
    | 1 => obtain rfl := Option.some.inj hm; exact h.runs_migration2SQL
    | 2 => obtain rfl := Option.some.inj hm; exact h.runs_migration3SQL
  resumes {k m c} hm h hres := by
    match k with
    | 0 => obtain rfl := Option.some.inj hm; exact h.resumes_migration1SQL
    | 1 => obtain rfl := Option.some.inj hm; exact absurd hres (by decide)
    | 2 => obtain rfl := Option.some.inj hm; exact absurd hres (by decide)
  fails {k m c} hm h hres := by
    match k with
    | 0 => obtain rfl := Option.some.inj hm; exact absurd rfl hres
    | 1 => obtain rfl := Option.some.inj hm; exact h.fails_migration2SQL
    | 2 => obtain rfl := Option.some.inj hm; exact h.fails_migration3SQL

/-! ## Opening the file -/

theorem nameAt_of_mem {col : Column} (h : col ∈ columnsAt k) : nameAt k col = col := by
  by_cases hk : k < 3
  · exact nameAt_of_lt hk
  · obtain ⟨n, rfl⟩ := Nat.exists_eq_add_of_le' (not_lt.1 hk)
    have hne : col ≠ .pairToken := ne_of_mem_of_not_mem h (by decide : Column.pairToken ∉ columnsAt 3)
    exact if_neg fun h' => hne h'.2

theorem HasSchema.columns (h : HasSchema k c) {col : Column} (hcol : col ∈ c.columns) :
    col ∈ columnsAt k := by
  obtain ⟨_ | t, indexes⟩ := c
  · simp [Content.columns] at hcol
  · exact h.1 ▸ hcol

theorem Clean.upTo {db : DB} (h : Clean k db) :
    Migrate.UpTo migrations (Ready db.content) k db := by
  refine ⟨h.le, h.versions, h.hasSchema, fun col hcol => ?_, ?_⟩
  · rw [nameAt_of_mem (h.hasSchema.columns hcol)]
    exact h.hasSchema.columns hcol
  · refine List.forall₂_same.2 fun row _ col hcol => ?_
    rw [nameAt_of_mem (h.hasSchema.columns hcol)]

/-- The `Open` is not stopped after a statement of the second or the third script and before its
version is recorded. -/
def StopsOutside (db : DB) (n : ℕ) : Prop :=
  Migrate.HarmlessStop exec migrations Resumable db n

instance (db : DB) (n : ℕ) : Decidable (StopsOutside db n) :=
  inferInstanceAs (Decidable (Migrate.HarmlessStop exec migrations Resumable db n))

/-- After any number of `Open`s that were stopped, one that is not succeeds, with the schema of
version 3 and every row of the file it began with, exactly if none was stopped inside the second or
the third script. -/
theorem openDB_iff_stopsOutside (k : ℕ) (db : DB) (hdb : Clean k db) (stops : List ℕ) (t : DB)
    (hrun : Lts.run stoppedOpen db stops = some t) :
    (∃ t', openDB t = some t' ∧ t'.versions = [1, 2, 3] ∧ HasSchema 3 t'.content ∧
      Kept 3 db.content t'.content) ↔ Lts.Meets stoppedOpen StopsOutside db stops := by
  have hiff := (plan db.content).migrates_iff hdb.upTo hrun
  constructor
  · rintro ⟨t', hopen, -⟩
    exact hiff.1 ⟨t', hopen⟩
  · intro hmeets
    obtain ⟨t', hopen⟩ := hiff.2 hmeets
    obtain ⟨-, -, hversions, hready⟩ := (plan db.content).upTo_of_migrate hdb.upTo hrun hopen
    exact ⟨t', hopen, hversions, hready.hasSchema, hready.kept⟩

/-- A file of version 1 with one device, which has announced a key. -/
def file1 : DB where
  content :=
    { devices := some ⟨columnsAt 1, [fun
        | .id => some "a"
        | .name => some "phone"
        | .publicKey => some "k"
        | .pairToken => some "secret"
        | .createdAt => some "2024-01-01"
        | _ => none]⟩
      indexes := indexesAt 1 }
  applied := some [1]

theorem file1_clean : Clean 1 file1 :=
  ⟨by decide, rfl, rfl, Finset.Subset.refl _, fun _ => rfl⟩

/-- Stopped after the second version was recorded, and then before the third script. -/
theorem openDB_file1 : ∃ t t', Lts.run stoppedOpen file1 [5, 4] = some t ∧ openDB t = some t' ∧
    t'.versions = [1, 2, 3] ∧ HasSchema 3 t'.content ∧ Kept 3 file1.content t'.content := by
  obtain ⟨t', h⟩ := (openDB_iff_stopsOutside 1 file1 file1_clean [5, 4] _ rfl).2 (by decide)
  exact ⟨_, t', rfl, h⟩

/-- Stopped between the `ALTER TABLE` of the second script and the record of its version. -/
theorem openDB_file1_stopped : Clean 1 file1 ∧
    ∃ t, Lts.run stoppedOpen file1 [4] = some t ∧ openDB t = none :=
  ⟨file1_clean, _, rfl, rfl⟩

end Relayly.Database
