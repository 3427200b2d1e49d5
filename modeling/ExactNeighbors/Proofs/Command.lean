import ExactNeighbors.Command
import ExactNeighbors.Proofs.Index.Loaded
import ExactNeighbors.Proofs.VectorFile

/-! # Commands in terms of their files

A command succeeds exactly when its files, its deletions and its options fit together. No stage can
fail for another reason than these: the index has the dimension of the data, there is room for all
rows, and labels are row numbers. What is found depends only on the rows that are kept.
-/
namespace ExactNeighbors

section Except

variable {ε ε' α β : Type}

theorem exists_of_bind_eq_ok {r : Except ε α} {f : α → Except ε β} {y : β}
    (h : r >>= f = .ok y) : ∃ x, r = .ok x ∧ f x = .ok y := by
  cases r with
  | error e => cases h
  | ok x => exact ⟨x, rfl, h⟩

theorem eq_ok_of_mapError {r : Except ε α} {f : ε → ε'} {x : α} (h : r.mapError f = .ok x) :
    r = .ok x := by
  cases r with
  | error e => cases h
  | ok y => cases h; rfl

end Except

theorem Metric.isValid_of_isPrimary {m : Metric} (h : m.isPrimary = true) : m.isValid = true := by
  cases m with
  | lp p => cases h
  | _ => rfl

namespace Settings

theorem validate_eq_ok_iff {s : Settings} :
    s.validate = .ok () ↔ s.dimension ≠ 0 ∧ s.metric.isValid = true := by
  unfold validate
  split
  · simp [*]
  · cases hm : s.metric with
    | lp p => simp [*, Metric.isValid]
    | _ => simp [*, Metric.isValid]

end Settings

namespace Index

theorem ofSettings_eq_ok {memory : Memory} {settings : Settings} (hd : 0 < settings.dimension)
    (hvalid : settings.metric.isValid = true)
    (hroom : (Store.empty memory settings.dimension settings.metric).roomFault?
      settings.initialCapacity = none) :
    Index.ofSettings memory settings = .ok {
      store := Store.empty memory settings.dimension settings.metric
      excludesTombstones := settings.excludesTombstones } := by
  have hvalidate := Settings.validate_eq_ok_iff.mpr ⟨Nat.ne_of_gt hd, hvalid⟩
  have hnew : Index.new memory settings.dimension settings.metric =
      .ok { store := Store.empty memory settings.dimension settings.metric } := by
    have hstore : Store.new memory (Codec.flat settings.dimension) settings.metric =
        .ok (Store.empty memory settings.dimension settings.metric) :=
      Store.new_eq memory settings.metric hd hd
    rw [Index.new, hstore]
    rfl
  have hreserve : (Store.empty memory settings.dimension settings.metric).reserve
      settings.initialCapacity = .ok () := by rw [Store.reserve, hroom]
  unfold Index.ofSettings
  rw [hvalidate, hnew]
  dsimp only [bind, Except.bind]
  split
  · rw [hreserve]
    rfl
  · rfl

theorem isValid_of_ofSettings {memory : Memory} {settings : Settings} {ix : Index}
    (h : Index.ofSettings memory settings = .ok ix) : settings.metric.isValid = true := by
  unfold Index.ofSettings at h
  split at h
  · cases h
  · exact (Settings.validate_eq_ok_iff.mp ‹_›).2

end Index

namespace Command

variable {host : Host} {files : Files} {settings : Settings} {options : BuildOptions}
variable {path : String}
variable {rows queries : List (List Single)} {d k : Nat} {ix : Index}

def metricOf (settings : Settings) (options : BuildOptions) : Metric :=
  options.metric?.getD settings.metric

def excludes (settings : Settings) (options : BuildOptions) : Bool :=
  settings.excludesTombstones && !options.includeTombstones

/-- There is room for all rows and for the initial capacity of the settings. -/
def Granted (host : Host) (settings : Settings) (options : BuildOptions)
    (rows : List (List Single)) : Prop :=
  (Store.empty host.memory (rows.headD []).length (metricOf settings options)).reserve
    (max settings.initialCapacity rows.length) = .ok ()

structure Buildable (settings : Settings) (options : BuildOptions) (rows : List (List Single))
    (d : Nat) : Prop where
  shaped : Shaped rows d
  isValid : (metricOf settings options).isValid = true
  nodup : options.delete.Nodup
  lt : ∀ label ∈ options.delete, label < rows.length

structure Built (host : Host) (settings : Settings) (options : BuildOptions)
    (rows : List (List Single)) (d : Nat) (ix : Index) : Prop where
  loaded : ix.Loaded rows options.delete
  memory_eq : ix.store.memory = host.memory
  metric_eq : ix.metric = metricOf settings options
  dimension_eq : ix.dimension = d
  excludes_eq : ix.excludesTombstones = excludes settings options

theorem Granted.roomFault?_eq (hroom : Granted host settings options rows) (h : Shaped rows d) :
    (Store.empty host.memory d (metricOf settings options)).roomFault?
      (max settings.initialCapacity rows.length) = none := by
  unfold Granted at hroom
  rw [h.dimension_eq] at hroom
  exact Store.reserve_eq_ok_iff.mp hroom

/-- The rows in an empty index, before anything is deleted. -/
theorem exists_filled (h : Shaped rows d) (hvalid : (metricOf settings options).isValid = true)
    (hroom : Granted host settings options rows) :
    ∃ ix₀ labels ix,
      Index.ofSettings host.memory (effective settings options d rows.length) = .ok ix₀ ∧
      ix₀.add rows.flatten = .ok (labels, ix) ∧ ix.Loaded rows [] ∧
      ix.store.memory = host.memory ∧ ix.metric = metricOf settings options ∧ ix.dimension = d ∧
      ix.excludesTombstones = excludes settings options := by
  have hfault := hroom.roomFault?_eq h
  have hcount : rows.length ≤ max settings.initialCapacity rows.length := Nat.le_max_right _ _
  have hsettings := Index.ofSettings_eq_ok
    (show 0 < (effective settings options d rows.length).dimension from h.dimension_pos)
    hvalid hfault
  obtain ⟨t, hadd, hcodec, hmetric, hfilled⟩ :=
    Store.add_rows h.dimension_pos h.length_eq (Store.roomFault?_mono hcount hfault)
  let ix : Index := { store := t, excludesTombstones := excludes settings options }
  have hdim : ix.dimension = d := congrArg Codec.dimension hcodec
  have hempty : (Store.empty host.memory d (metricOf settings options)).Coherent :=
    Store.coherent_of_empty h.dimension_pos h.dimension_pos
  have hfits : t.Fits := (Store.fits_of_empty _ _ _).add hempty hadd
  have hcoherent : ix.Coherent := ⟨hfilled.coherent, hfits, by rw [hdim]; exact hcodec⟩
  refine ⟨_, List.range rows.length, ix, hsettings, ?_, Index.loaded_of_filled hcoherent hfilled,
    (Store.placedAll_of_add hempty hadd).2.memory_eq, hmetric, hdim, rfl⟩
  change (Store.add (Store.empty host.memory d (metricOf settings options)) rows.flatten).map _ = _
  rw [hadd]
  rfl

theorem readVectors_eq_ok (hpath : rowsAt? host.rows? files path = some rows) (h : Shaped rows d) :
    readVectors host files path = .ok ⟨d, rows.flatten⟩ := by
  rw [readVectors, Vectors.read_eq hpath, Vectors.ofRows_eq_ok h]
  rfl

theorem shaped_of_readVectors {v : Vectors} (hpath : rowsAt? host.rows? files path = some rows)
    (h : readVectors host files path = .ok v) : Shaped rows v.dimension := by
  have hread := eq_ok_of_mapError h
  rw [Vectors.read_eq hpath] at hread
  obtain ⟨d, hshaped⟩ := Vectors.shaped_of_ofRows hread
  rw [Vectors.ofRows_eq_ok hshaped] at hread
  cases hread
  exact hshaped

theorem build_eq (hdata : rowsAt? host.rows? files options.data = some rows) (h : Shaped rows d) :
    build host files settings options = (do
      let empty ← during .create
        (Index.ofSettings host.memory (effective settings options d rows.length))
      let (_, full) ← during .load (empty.add rows.flatten)
      if options.delete.isEmpty then return full
      let (_, index) ← during .delete (full.markDeleted options.delete)
      return index) := by
  rw [build, readVectors_eq_ok hdata h, ← Vectors.count_eq h]
  rfl

/-- All stages but the deletion go through. -/
theorem build_eq_deletion (hdata : rowsAt? host.rows? files options.data = some rows)
    (h : Shaped rows d)
    (hvalid : (metricOf settings options).isValid = true)
    (hroom : Granted host settings options rows) :
    ∃ full, Built host settings { options with delete := [] } rows d full ∧
      build host files settings options =
        if options.delete.isEmpty then .ok full
        else (during .delete (full.markDeleted options.delete)).map Prod.snd := by
  obtain ⟨empty, labels, full, hempty, hadd, l, hmemory, hm, hd, he⟩ := exists_filled h hvalid hroom
  refine ⟨full, ⟨l, hmemory, hm, hd, he⟩, ?_⟩
  rw [build_eq hdata h, hempty]
  change (during .load (empty.add rows.flatten) >>= _) = _
  rw [hadd]
  change (if options.delete.isEmpty then _ else _) = _
  split
  · rfl
  · cases full.markDeleted options.delete <;> rfl

/-- An index can be built from any rows and deletions that fit. -/
theorem Buildable.exists_built (b : Buildable settings options rows d)
    (hdata : rowsAt? host.rows? files options.data = some rows)
    (hroom : Granted host settings options rows) :
    ∃ ix, build host files settings options = .ok ix ∧ Built host settings options rows d ix := by
  obtain ⟨full, hfull, hbuild⟩ := build_eq_deletion hdata b.shaped b.isValid hroom
  rw [hbuild]
  split
  · rename_i hnone
    have hdelete := List.isEmpty_iff.mp hnone
    exact ⟨full, rfl, by rw [hdelete]; exact hfull.loaded, hfull.memory_eq, hfull.metric_eq,
      hfull.dimension_eq, hfull.excludes_eq⟩
  · have hdeletable := (hfull.loaded.deletable_iff options.delete).mpr ⟨b.nodup, b.lt⟩
    obtain ⟨ix, hmark⟩ := Index.markDeleted_eq_ok hfull.loaded.coherent.store hdeletable
    obtain ⟨-, hloaded, hmemory, hm, hd, he⟩ := hfull.loaded.markDeleted hmark
    refine ⟨ix, by rw [hmark]; rfl, hloaded, hmemory.trans hfull.memory_eq,
      hm.trans hfull.metric_eq, hd.trans hfull.dimension_eq, he.trans hfull.excludes_eq⟩

theorem isValid_of_build (hdata : rowsAt? host.rows? files options.data = some rows)
    (h : Shaped rows d)
    (hbuild : build host files settings options = .ok ix) :
    (metricOf settings options).isValid = true := by
  rw [build_eq hdata h] at hbuild
  obtain ⟨empty, hempty, -⟩ := exists_of_bind_eq_ok hbuild
  exact Index.isValid_of_ofSettings (eq_ok_of_mapError hempty)

/-- Nothing else can be built. -/
theorem buildable_of_build (hdata : rowsAt? host.rows? files options.data = some rows)
    (hroom : Granted host settings options rows)
    (hbuild : build host files settings options = .ok ix) :
    ∃ d, Buildable settings options rows d := by
  obtain ⟨v, hread, -⟩ := exists_of_bind_eq_ok hbuild
  have hshaped := shaped_of_readVectors hdata hread
  have hvalid := isValid_of_build hdata hshaped hbuild
  obtain ⟨full, hfull, heq⟩ := build_eq_deletion hdata hshaped hvalid hroom
  have hdelete : options.delete.Nodup ∧ ∀ label ∈ options.delete, label < rows.length := by
    rw [heq] at hbuild
    split at hbuild
    · rename_i hnone
      rw [List.isEmpty_iff.mp hnone]
      exact ⟨List.nodup_nil, fun _ h => nomatch h⟩
    · cases hmark : full.markDeleted options.delete with
      | error e =>
        rw [hmark] at hbuild
        cases hbuild
      | ok pair =>
        exact (hfull.loaded.deletable_iff _).mp (hfull.loaded.markDeleted hmark).1
  exact ⟨v.dimension, hshaped, hvalid, hdelete.1, hdelete.2⟩

/-- The files and the deletions fit together in one dimension. -/
structure Fits (options : BuildOptions) (rows queries : List (List Single)) (d : Nat) : Prop where
  shaped : Shaped rows d
  queries_shaped : Shaped queries d
  nodup : options.delete.Nodup
  lt : ∀ label ∈ options.delete, label < rows.length

/-- The numbers of the rows that a command can find. -/
def kept (settings : Settings) (options : BuildOptions) (rows : List (List Single)) : List Nat :=
  Index.keptRows rows options.delete (excludes settings options)

/-- The answers are what is found for each query, and whatever is found is a row that is kept, with
the score of the query against it. -/
structure Finds (settings : Settings) (options : BuildOptions) (rows queries : List (List Single))
    (find : List Score → List Hit) (answers : List (List Hit)) : Prop where
  answers_eq : answers = queries.map fun q => find (q.map Single.value)
  credits : ∀ q ∈ queries, ∀ hit ∈ find (q.map Single.value),
    Index.Credits (metricOf settings options) (q.map Single.value) rows
      (kept settings options rows) hit

theorem readQueries_eq_ok (hpath : rowsAt? host.rows? files path = some queries)
    (h : Shaped queries ix.dimension) :
    readQueries host files ix path = .ok (queries.map (·.map Single.value)).flatten := by
  rw [readQueries, readVectors_eq_ok hpath h, ← Vectors.values_eq ix.dimension]
  exact if_neg (not_not_intro rfl)

theorem shaped_of_readQueries {values : List Score}
    (hpath : rowsAt? host.rows? files path = some queries)
    (h : readQueries host files ix path = .ok values) : Shaped queries ix.dimension := by
  obtain ⟨v, hread, hrest⟩ := exists_of_bind_eq_ok h
  have hshaped := shaped_of_readVectors hpath hread
  by_cases hdim : v.dimension = ix.dimension
  · rwa [hdim] at hshaped
  · rw [if_pos hdim] at hrest
    cases hrest

theorem Fits.exists_built (f : Fits options rows queries d)
    (hdata : rowsAt? host.rows? files options.data = some rows)
    (hpath : rowsAt? host.rows? files path = some queries)
    (hroom : Granted host settings options rows)
    (hvalid : (metricOf settings options).isValid = true) :
    ∃ ix, build host files settings options = .ok ix ∧ Built host settings options rows d ix ∧
      readQueries host files ix path = .ok (queries.map (·.map Single.value)).flatten ∧
      ∀ q ∈ queries, q.length = ix.dimension := by
  have b : Buildable settings options rows d := ⟨f.shaped, hvalid, f.nodup, f.lt⟩
  obtain ⟨ix, hbuild, built⟩ := b.exists_built hdata hroom
  have hqueries : Shaped queries ix.dimension := by
    rw [built.dimension_eq]
    exact f.queries_shaped
  exact ⟨ix, hbuild, built, readQueries_eq_ok hpath hqueries, hqueries.length_eq⟩

theorem exists_fits {values : List Score}
    (hdata : rowsAt? host.rows? files options.data = some rows)
    (hpath : rowsAt? host.rows? files path = some queries)
    (hroom : Granted host settings options rows)
    (hbuild : build host files settings options = .ok ix)
    (hread : readQueries host files ix path = .ok values) :
    ∃ d, Fits options rows queries d ∧ Built host settings options rows d ix ∧
      (metricOf settings options).isValid = true := by
  obtain ⟨d, b⟩ := buildable_of_build hdata hroom hbuild
  obtain ⟨jx, hbuild', built⟩ := b.exists_built hdata hroom
  obtain rfl : jx = ix := Except.ok.inj (hbuild'.symm.trans hbuild)
  have hqueries := shaped_of_readQueries hpath hread
  rw [built.dimension_eq] at hqueries
  exact ⟨d, ⟨b.shaped, hqueries, b.nodup, b.lt⟩, built, b.isValid⟩

theorem Fits.search_eq (f : Fits options rows queries d)
    (hdata : rowsAt? host.rows? files options.data = some rows)
    (hpath : rowsAt? host.rows? files path = some queries)
    (hroom : Granted host settings options rows)
    (hvalid : (metricOf settings options).isValid = true)
    (hk : 1 ≤ k) :
    search host files settings options path k = .ok (queries.map fun q =>
      Index.nearestRows (metricOf settings options) k (q.map Single.value) rows
        (kept settings options rows)) := by
  obtain ⟨ix, hbuild, built, hread, hlength⟩ := f.exists_built hdata hpath hroom hvalid
  rw [search, hbuild]
  change (readQueries host files ix path >>= _) = _
  rw [hread]
  change during .search (ix.search _ k none) = _
  rw [built.loaded.search_eq hk hlength, built.metric_eq, built.excludes_eq]
  rfl

theorem Fits.range_eq (f : Fits options rows queries d)
    (hdata : rowsAt? host.rows? files options.data = some rows)
    (hpath : rowsAt? host.rows? files path = some queries)
    (hroom : Granted host settings options rows)
    (hprimary : (metricOf settings options).isPrimary = true) (radius : Score) :
    range host files settings options path radius = .ok (queries.map fun q =>
      Index.rowsWithin (metricOf settings options) radius (q.map Single.value) rows
        (kept settings options rows)) := by
  have hvalid := Metric.isValid_of_isPrimary hprimary
  obtain ⟨ix, hbuild, built, hread, hlength⟩ := f.exists_built hdata hpath hroom hvalid
  rw [← built.metric_eq] at hprimary
  rw [range, hbuild]
  change (readQueries host files ix path >>= _) = _
  rw [hread]
  change during .rangeSearch (ix.rangeSearch _ radius none) = _
  rw [built.loaded.rangeSearch_eq hprimary radius hlength, built.metric_eq, built.excludes_eq]
  rfl

theorem fits_of_search {answers : List (List Hit)}
    (hdata : rowsAt? host.rows? files options.data = some rows)
    (hpath : rowsAt? host.rows? files path = some queries)
    (hroom : Granted host settings options rows)
    (hsearch : search host files settings options path k = .ok answers) :
    ∃ d, Fits options rows queries d ∧ (metricOf settings options).isValid = true ∧ 1 ≤ k := by
  obtain ⟨ix, hbuild, hrest⟩ := exists_of_bind_eq_ok hsearch
  obtain ⟨values, hread, hfound⟩ := exists_of_bind_eq_ok hrest
  obtain ⟨d, f, built, hvalid⟩ := exists_fits hdata hpath hroom hbuild hread
  refine ⟨d, f, hvalid, Nat.one_le_iff_ne_zero.mpr ?_⟩
  rintro rfl
  have hzero := eq_ok_of_mapError hfound
  rw [Index.search_eq_match built.loaded.coherent] at hzero
  cases hzero

theorem fits_of_range {radius : Score} {answers : List (List Hit)}
    (hdata : rowsAt? host.rows? files options.data = some rows)
    (hpath : rowsAt? host.rows? files path = some queries)
    (hroom : Granted host settings options rows)
    (hrange : range host files settings options path radius = .ok answers) :
    ∃ d, Fits options rows queries d ∧ (metricOf settings options).isPrimary = true := by
  obtain ⟨ix, hbuild, hrest⟩ := exists_of_bind_eq_ok hrange
  obtain ⟨values, hread, hfound⟩ := exists_of_bind_eq_ok hrest
  obtain ⟨d, f, built, -⟩ := exists_fits hdata hpath hroom hbuild hread
  refine ⟨d, f, ?_⟩
  rw [← built.metric_eq]
  by_contra hprimary
  have herror := eq_ok_of_mapError hfound
  rw [Index.rangeSearch_eq_error (Bool.eq_false_iff.mpr hprimary)] at herror
  cases herror

theorem Fits.length_query (f : Fits options rows queries d) {q : List Single} (hq : q ∈ queries) :
    0 < (q.map Single.value).length ∧
      ∀ row ∈ rows, row.length = (q.map Single.value).length := by
  rw [List.length_map, f.queries_shaped.length_eq q hq]
  exact ⟨f.shaped.dimension_pos, f.shaped.length_eq⟩

/-- A command succeeds exactly when rows, queries and deletions fit together and the metric and `k`
are admitted. It finds the best of the rows that are kept, or those within the radius. The dimension
in the settings does not matter. -/
theorem search_and_range_of_files (hdata : rowsAt? host.rows? files options.data = some rows)
    (hpath : rowsAt? host.rows? files path = some queries)
    (hroom : Granted host settings options rows) :
    let m := metricOf settings options
    (∀ k, (∃ answers, search host files settings options path k = .ok answers) ↔
      (∃ d, Fits options rows queries d) ∧ m.isValid = true ∧ 1 ≤ k) ∧
    (∀ radius, (∃ answers, range host files settings options path radius = .ok answers) ↔
      (∃ d, Fits options rows queries d) ∧ (m = .l2 ∨ m = .innerProduct)) ∧
    (∀ k answers, search host files settings options path k = .ok answers →
      Finds settings options rows queries
        (fun q => Index.nearestRows m k q rows (kept settings options rows)) answers) ∧
    (∀ radius answers, range host files settings options path radius = .ok answers →
      Finds settings options rows queries
        (fun q => Index.rowsWithin m radius q rows (kept settings options rows)) answers) ∧
    ∀ dimension k radius,
      search host files { settings with dimension } options path k =
        search host files settings options path k ∧
      range host files { settings with dimension } options path radius =
        range host files settings options path radius := by
  intro m
  have hprimary : m.isPrimary = true ↔ m = .l2 ∨ m = .innerProduct := by
    cases m <;> simp [Metric.isPrimary]
  refine ⟨fun k => ⟨?_, ?_⟩, fun radius => ⟨?_, ?_⟩, ?_, ?_, fun _ _ _ => ⟨rfl, rfl⟩⟩
  · rintro ⟨answers, hsearch⟩
    obtain ⟨d, f, hvalid, hk⟩ := fits_of_search hdata hpath hroom hsearch
    exact ⟨⟨d, f⟩, hvalid, hk⟩
  · rintro ⟨⟨d, f⟩, hvalid, hk⟩
    exact ⟨_, f.search_eq hdata hpath hroom hvalid hk⟩
  · rintro ⟨answers, hrange⟩
    obtain ⟨d, f, hm⟩ := fits_of_range hdata hpath hroom hrange
    exact ⟨⟨d, f⟩, hprimary.mp hm⟩
  · rintro ⟨⟨d, f⟩, hm⟩
    exact ⟨_, f.range_eq hdata hpath hroom (hprimary.mpr hm) radius⟩
  · intro k answers hsearch
    obtain ⟨d, f, hvalid, hk⟩ := fits_of_search hdata hpath hroom hsearch
    refine ⟨Except.ok.inj (hsearch.symm.trans (f.search_eq hdata hpath hroom hvalid hk)), ?_⟩
    intro q hq hit hhit
    obtain ⟨hpos, hrows⟩ := f.length_query hq
    exact Index.credits_of_mem_nearestRows hpos hrows hhit
  · intro radius answers hrange
    obtain ⟨d, f, hm⟩ := fits_of_range hdata hpath hroom hrange
    refine ⟨Except.ok.inj (hrange.symm.trans (f.range_eq hdata hpath hroom hm radius)), ?_⟩
    intro q hq hit hhit
    obtain ⟨hpos, hrows⟩ := f.length_query hq
    exact Index.credits_of_mem_rowsWithin hpos hrows hhit

/-- The second of three rows is deleted; the settings name another dimension. -/
theorem search_and_range_of_files_deleted :
    let files : Files := fun path =>
      [("rows.json", "[[1], [2], [4]]"), ("queries.json", "[[2]]")].lookup path
    let options : BuildOptions := { data := "rows.json", delete := [1] }
    let one : Single := ⟨0x3f800000⟩
    let two : Single := ⟨0x40000000⟩
    let four : Single := ⟨0x40800000⟩
    let rows := [[one], [two], [four]]
    (rowsAt? Host.standard.rows? files options.data = some rows ∧
      rowsAt? Host.standard.rows? files "queries.json" = some [[two]] ∧
      Granted .standard {} options rows) ∧
    search .standard files {} options "queries.json" 5 = .ok [[⟨0, one.value⟩, ⟨2, four.value⟩]] ∧
    Finds {} options rows [[two]]
      (fun q => Index.nearestRows .l2 5 q rows (kept {} options rows))
      [[⟨0, one.value⟩, ⟨2, four.value⟩]] ∧
    ∃ answers, range .standard files {} options "queries.json" four.value = .ok answers := by
  intro files options one two four rows
  have hdata : rowsAt? Host.standard.rows? files options.data = some rows := by decide +kernel
  have hpath : rowsAt? Host.standard.rows? files "queries.json" = some [[two]] := by decide +kernel
  have hroom : Granted .standard {} options rows := rfl
  have hsearch : search .standard files {} options "queries.json" 5 =
      .ok [[⟨0, one.value⟩, ⟨2, four.value⟩]] := Index.eq_ok_of_toOption (by decide +kernel)
  obtain ⟨hiff, hrange, hfinds, -⟩ := search_and_range_of_files hdata hpath hroom
  have hfits := ((hiff 5).mp ⟨_, hsearch⟩).1
  exact ⟨⟨hdata, hpath, hroom⟩, hsearch, hfinds 5 _ hsearch,
    (hrange four.value).mpr ⟨hfits, Or.inl rfl⟩⟩

end Command
end ExactNeighbors
