import FilterLang.Command.Run
import FilterLang.Proofs.Command.Arguments
import FilterLang.Proofs.Table.Reordering

/-!
# The stages of a run

A command line makes the request that its items ask for, and no other.  A run of this request goes from stage to
stage and ends where the first of them fails.  `Request.Ends` lists the ways in which it can end, with what has been
put out and which files have been read by then; every run ends in one of them (`Request.exists_ends`).  Rows are put
out at one end only, where all stages have succeeded.

The contents of the files are fixed.  Reading one of them may have an effect besides, as that it is noted, so
that one can see which files are read and in which order.
-/

namespace FilterLang.Command

open Text (inspect)
open Dataset (Loadable rowIn tableOf)

/-! ## What is printed -/

/-- The lines as they are printed, each with a line break behind it. -/
def printed (lines : List String) : String :=
  String.join (lines.map fun line => line ++ "\n")

/-- What a run prints. -/
def Outcome.stdout (o : Outcome) : String :=
  printed o.output

theorem printed_cons (line : String) (lines : List String) :
    printed (line :: lines) = line ++ "\n" ++ printed lines := by
  simp [printed, String.join_cons]

theorem printed_singleton (line : String) : printed [line] = line ++ "\n" := by
  rw [printed_cons]
  exact String.append_empty

/-! ## What is read -/

variable {m : Type → Type} [Monad m] {note : String → m Unit} {contents : Files Id}

/-- Files with these contents, the reading of which is noted. -/
def Files.noting (note : String → m Unit) (contents : Files Id) : Files m := fun path => do
  note path
  return (contents path).run

section Reading

variable {α β : Type} {x : m α} {f : α → m β} {a : α} {b : β} {paths more : List String}

/-- Whether the computation ends with the result and does nothing but read these files, in this order. -/
def Reads (note : String → m Unit) (x : m α) (a : α) (paths : List String) : Prop :=
  x = do
    paths.forM note
    return a

variable [LawfulMonad m]

theorem Reads.pure (a : α) : Reads note (pure a) a [] := by
  simp [Reads]

theorem Reads.bind (hx : Reads note x a paths) (hf : Reads note (f a) b more) :
    Reads note (x >>= f) b (paths ++ more) := by
  rw [Reads] at hx hf ⊢
  rw [hx]
  simp [hf]

/-- What follows may read nothing more. -/
theorem Reads.bind_pure (hx : Reads note x a paths) (hf : f a = Pure.pure b) :
    Reads note (x >>= f) b paths := by
  rw [← List.append_nil paths]
  refine hx.bind ?_
  rw [hf]
  exact .pure b

end Reading

variable [LawfulMonad m]

theorem reads_file (path : String) :
    Reads note (Files.noting note contents path) (contents path).run [path] := by
  simp [Reads, Files.noting]

theorem reads_readText (headline path : String) :
    Reads note (readText (Files.noting note contents) headline path)
      (readText contents headline path).run [path] := by
  refine (reads_file path).bind_pure ?_
  rw [readText, Id.run_bind]
  cases (contents path).run with
  | error reason => rfl
  | ok bytes =>
    cases hdecoded : String.fromUTF8? bytes with
    | none => simp [hdecoded]
    | some text => simp [hdecoded]

/-- The file with the settings is read, if there is one. -/
theorem reads_loadSettings (grammar : Option String) :
    Reads note (loadSettings (Files.noting note contents) grammar) (loadSettings contents grammar).run
      grammar.toList := by
  cases grammar with
  | none => exact .pure _
  | some path =>
    refine (reads_readText _ path).bind_pure ?_
    rw [loadSettings, Id.run_bind]
    cases (readText contents "Failed to read grammar file " path).run with
    | error report => rfl
    | ok text =>
      cases hsettings : Settings.ofText? text with
      | none => simp [hsettings]
      | some settings => simp [hsettings]

theorem reads_loadTable (path : String) :
    Reads note (loadTable (Files.noting note contents) path) (loadTable contents path).run [path] := by
  refine (reads_readText _ path).bind_pure ?_
  rw [loadTable, Id.run_bind]
  cases (readText contents "Failed to read dataset " path).run with
  | error report => rfl
  | ok text =>
    cases htable : Dataset.ofText text with
    | error e => simp [htable]
    | ok table => simp [htable]

/-! ## What is in the files -/

/-- Whether the file holds this text. -/
def Files.HasText (contents : Files Id) (path text : String) : Prop :=
  ∃ bytes, (contents path).run = .ok bytes ∧ String.fromUTF8? bytes = some text

/-- Whether these are the settings in the file, or the usual ones if there is no file. -/
def Files.HasSettings (contents : Files Id) (grammar : Option String) (settings : Settings) : Prop :=
  match grammar with
  | none => settings = {}
  | some path => ∃ text, contents.HasText path text ∧ Settings.ofText? text = some settings

/-- Whether the file can be read as a dataset with these records. -/
def Files.HasRecords (contents : Files Id) (path : String) (records : List Record) : Prop :=
  ∃ text, contents.HasText path text ∧ Dataset.records? text = some records

theorem readText_eq_ok_iff (headline : String) {path text : String} :
    (readText contents headline path).run = .ok text ↔ contents.HasText path text := by
  rw [readText, Id.run_bind, Files.HasText]
  cases (contents path).run with
  | error reason => simp
  | ok bytes =>
    cases hdecoded : String.fromUTF8? bytes with
    | none => simp [hdecoded]
    | some text' => simp [hdecoded]

theorem loadSettings_eq_ok_iff {grammar : Option String} {settings : Settings} :
    (loadSettings contents grammar).run = .ok settings ↔ contents.HasSettings grammar settings := by
  cases grammar with
  | none => simp [loadSettings, Files.HasSettings, eq_comm]
  | some path =>
    rw [loadSettings, Id.run_bind, Files.HasSettings]
    simp only [← readText_eq_ok_iff "Failed to read grammar file "]
    cases (readText contents "Failed to read grammar file " path).run with
    | error report => simp
    | ok text =>
      cases hsettings : Settings.ofText? text with
      | none => simp [hsettings]
      | some settings' => simp [hsettings]

theorem Files.HasSettings.unique {grammar : Option String} {settings settings' : Settings}
    (h : contents.HasSettings grammar settings) (h' : contents.HasSettings grammar settings') :
    settings = settings' := by
  have hload := loadSettings_eq_ok_iff.2 h
  rw [loadSettings_eq_ok_iff.2 h'] at hload
  exact (Except.ok.inj hload).symm

/-- A table is loaded exactly if it is the one of the records in the file, each of which can be loaded. -/
theorem loadTable_eq_ok_iff {path : String} {table : Table} :
    (loadTable contents path).run = .ok table ↔
      ∃ records, contents.HasRecords path records ∧ (∀ record ∈ records, Loadable record) ∧
        table = tableOf records := by
  have hread : (loadTable contents path).run = .ok table ↔
      ∃ text, contents.HasText path text ∧ Dataset.ofText text = .ok table := by
    rw [loadTable, Id.run_bind]
    simp only [← readText_eq_ok_iff "Failed to read dataset "]
    cases (readText contents "Failed to read dataset " path).run with
    | error report => simp
    | ok text =>
      cases htable : Dataset.ofText text with
      | error e => simp [htable]
      | ok table' => simp [htable]
  rw [hread]
  constructor
  · rintro ⟨text, htext, htable⟩
    obtain ⟨records, hrecords, htable⟩ := Dataset.ofText_eq_ok_iff.1 htable
    exact ⟨records, ⟨text, htext, hrecords⟩, Dataset.table_eq_ok_iff.1 htable⟩
  · rintro ⟨records, ⟨text, htext, hrecords⟩, hloaded⟩
    exact ⟨text, htext, Dataset.ofText_eq_ok_iff.2 ⟨records, hrecords, Dataset.table_eq_ok_iff.2 hloaded⟩⟩

/-! ## How a request ends -/

namespace Request

/-- Whether the expression is compiled to this tree with the settings that the request has. -/
def Compiles (contents : Files Id) (r : Request) (tree : Tree PointRule) : Prop :=
  ∃ settings, contents.HasSettings r.grammar settings ∧
    compile (settings.grammar PointRule.join) r.expression = .ok tree

theorem Compiles.unique {r : Request} {tree tree' : Tree PointRule} (h : r.Compiles contents tree)
    (h' : r.Compiles contents tree') : tree = tree' := by
  obtain ⟨settings, hload, hcompile⟩ := h
  obtain ⟨settings', hload', hcompile'⟩ := h'
  obtain rfl := hload.unique hload'
  rw [hcompile] at hcompile'
  exact Except.ok.inj hcompile'

/-- The ways in which a request can end, each with the files that are read until then.  There is one for the
failure of every stage, and in it all stages before have succeeded. -/
inductive Ends (contents : Files Id) (r : Request) : Outcome → List String → Prop where
  /-- The settings cannot be loaded -/
  | unsettled {report : Report} (settings : (loadSettings contents r.grammar).run = .error report) :
      Ends contents r (.failed [] report) r.grammar.toList
  /-- The expression is not compiled -/
  | uncompiled {settings : Settings} {e : ExprError}
      (settled : (loadSettings contents r.grammar).run = .ok settings)
      (refused : compile (settings.grammar PointRule.join) r.expression = .error e) :
      Ends contents r (.failed [] ⟨"Failed to compile " ++ inspect r.expression, [e.message]⟩)
        r.grammar.toList
  /-- The tree is all that is asked for -/
  | shown {tree : Tree PointRule} (compiled : r.Compiles contents tree)
      (stop : r.treeOnly = true ∨ r.data = none) :
      Ends contents r (.finished [toString tree]) r.grammar.toList
  /-- The dataset cannot be loaded -/
  | unloaded {tree : Tree PointRule} {path : String} {report : Report}
      (compiled : r.Compiles contents tree) (go : r.treeOnly = false) (data : r.data = some path)
      (table : (loadTable contents path).run = .error report) :
      Ends contents r (.failed [toString tree] report) (r.grammar.toList ++ [path])
  /-- The tree cannot be bound to the table -/
  | unbound {tree : Tree PointRule} {path : String} {table : Table} {halt : Halt}
      (compiled : r.Compiles contents tree) (go : r.treeOnly = false) (data : r.data = some path)
      (loaded : (loadTable contents path).run = .ok table)
      (refused : table.bind Table.vocabulary tree = .error halt) :
      Ends contents r (.failed [toString tree] ⟨"Failed to bind expression", [halt.message]⟩)
        (r.grammar.toList ++ [path])
  /-- Rows are selected -/
  | selected {tree : Tree PointRule} {path : String} {table : Table} {condition : Condition}
      (compiled : r.Compiles contents tree) (go : r.treeOnly = false) (data : r.data = some path)
      (loaded : (loadTable contents path).run = .ok table)
      (bound : table.bind Table.vocabulary tree = .ok condition) :
      Ends contents r (.finished (toString tree :: rowLines table condition))
        (r.grammar.toList ++ [path])

/-- Behind the tree there are three ways to end. -/
theorem exists_ends_selectFrom {r : Request} {tree : Tree PointRule} {path : String}
    (compiled : r.Compiles contents tree) (go : r.treeOnly = false) (data : r.data = some path) :
    ∃ outcome, r.Ends contents outcome (r.grammar.toList ++ [path]) ∧
      ∀ {m : Type → Type} [Monad m] [LawfulMonad m] (note : String → m Unit),
        Reads note (selectFrom (Files.noting note contents) path tree) outcome [path] := by
  cases htable : (loadTable contents path).run with
  | error report =>
    refine ⟨_, .unloaded compiled go data htable, ?_⟩
    intro m _ _ note
    refine (reads_loadTable path).bind_pure ?_
    rw [htable]
  | ok table =>
    cases hbind : table.bind Table.vocabulary tree with
    | error halt =>
      refine ⟨_, .unbound compiled go data htable hbind, ?_⟩
      intro m _ _ note
      refine (reads_loadTable path).bind_pure ?_
      simp only [htable, hbind]
    | ok condition =>
      refine ⟨_, .selected compiled go data htable hbind, ?_⟩
      intro m _ _ note
      refine (reads_loadTable path).bind_pure ?_
      simp only [htable, hbind]
      rfl

/-- Every request ends in one of the ways, whatever happens when a file is read. -/
theorem exists_ends (contents : Files Id) (r : Request) :
    ∃ outcome paths, r.Ends contents outcome paths ∧
      ∀ {m : Type → Type} [Monad m] [LawfulMonad m] (note : String → m Unit),
        Reads note (r.run (Files.noting note contents)) outcome paths := by
  cases hsettings : (loadSettings contents r.grammar).run with
  | error report =>
    refine ⟨_, _, .unsettled hsettings, ?_⟩
    intro m _ _ note
    refine (reads_loadSettings r.grammar).bind_pure ?_
    rw [hsettings]
  | ok settings =>
    cases hcompile : compile (settings.grammar PointRule.join) r.expression with
    | error e =>
      refine ⟨_, _, .uncompiled hsettings hcompile, ?_⟩
      intro m _ _ note
      refine (reads_loadSettings r.grammar).bind_pure ?_
      simp only [hsettings, hcompile]
    | ok tree =>
      have compiled : r.Compiles contents tree := ⟨settings, loadSettings_eq_ok_iff.1 hsettings, hcompile⟩
      cases htree : r.treeOnly with
      | true =>
        refine ⟨_, _, .shown compiled (.inl htree), ?_⟩
        intro m _ _ note
        refine (reads_loadSettings r.grammar).bind_pure ?_
        simp only [hsettings, hcompile, htree, if_true]
      | false =>
        cases hdata : r.data with
        | none =>
          refine ⟨_, _, .shown compiled (.inr hdata), ?_⟩
          intro m _ _ note
          refine (reads_loadSettings r.grammar).bind_pure ?_
          simp [hsettings, hcompile, htree, hdata]
        | some path =>
          -- from here on the dataset is read as well
          obtain ⟨outcome, hends, hreads⟩ := exists_ends_selectFrom compiled htree hdata
          refine ⟨outcome, _, hends, ?_⟩
          intro m _ _ note
          refine (reads_loadSettings r.grammar).bind ?_
          simpa [hsettings, hcompile, htree, hdata] using hreads note

/-! ## What holds at every end -/

/-- What can be relied on at the end of a run, without a look at the way it has taken. -/
structure Staged (contents : Files Id) (r : Request) (outcome : Outcome) (paths : List String) : Prop where
  exitCode : outcome.exitCode = 0 ∨ outcome.exitCode = 1
  /-- After a failure nothing has been printed, or the tree alone -/
  failed : outcome.exitCode = 1 →
    (outcome.stdout = "" ∧ ∀ tree, ¬r.Compiles contents tree) ∨
    ∃ tree path, r.Compiles contents tree ∧ r.treeOnly = false ∧ r.data = some path ∧
      outcome.stdout = toString tree ++ "\n" ∧
      ∀ records condition, contents.HasRecords path records → (∀ record ∈ records, Loadable record) →
        (tableOf records).bind Table.vocabulary tree ≠ .ok condition
  /-- If rows are not asked for, the dataset is not read, and whatever is compiled is printed -/
  stopped : r.treeOnly = true ∨ r.data = none →
    paths = r.grammar.toList ∧
      ∀ tree, r.Compiles contents tree →
        outcome.exitCode = 0 ∧ outcome.stdout = toString tree ++ "\n"
  /-- Otherwise success means that the tree is printed, and then each record on which its condition holds -/
  selected : outcome.exitCode = 0 → r.treeOnly = false → ∀ path, r.data = some path →
    ∃ tree records condition, r.Compiles contents tree ∧ contents.HasRecords path records ∧
      (∀ record ∈ records, Loadable record) ∧
      (tableOf records).bind Table.vocabulary tree = .ok condition ∧
      outcome.stdout = printed (toString tree ::
        (records.filter fun record => condition.holds (rowIn (tableOf records).columns record)).map
          fun record => toString ((tableOf records).rowJson (rowIn (tableOf records).columns record)))

variable {r : Request} {tree : Tree PointRule} {path : String} {report : Report}

/-- With a dataset to select from, a run does not stop at the tree. -/
theorem not_stopped (go : r.treeOnly = false) (data : r.data = some path) :
    ¬(r.treeOnly = true ∨ r.data = none) := by
  rintro (htree | hnone)
  · rw [go] at htree
    cases htree
  · rw [data] at hnone
    cases hnone

/-- A failure in front of the tree. -/
theorem staged_of_not_compiles (hnone : ∀ tree, ¬r.Compiles contents tree) :
    r.Staged contents (.failed [] report) r.grammar.toList := by
  constructor
  · exact .inr rfl
  · intro _
    exact .inl ⟨rfl, hnone⟩
  · intro _
    exact ⟨rfl, fun tree htree => absurd htree (hnone tree)⟩
  · nofun

/-- A failure behind the tree. -/
theorem staged_of_not_bound (compiled : r.Compiles contents tree) (go : r.treeOnly = false)
    (data : r.data = some path)
    (hnone : ∀ table condition, (loadTable contents path).run = .ok table →
      table.bind Table.vocabulary tree ≠ .ok condition) :
    r.Staged contents (.failed [toString tree] report) (r.grammar.toList ++ [path]) := by
  constructor
  · exact .inr rfl
  · intro _
    refine .inr ⟨tree, path, compiled, go, data, printed_singleton _, ?_⟩
    intro records condition hrecords hload
    exact hnone _ condition (loadTable_eq_ok_iff.2 ⟨records, hrecords, hload, rfl⟩)
  · intro hstop
    exact absurd hstop (not_stopped go data)
  · nofun

theorem staged_of_stopped (compiled : r.Compiles contents tree)
    (stop : r.treeOnly = true ∨ r.data = none) :
    r.Staged contents (.finished [toString tree]) r.grammar.toList := by
  constructor
  · exact .inl rfl
  · nofun
  · intro _
    refine ⟨rfl, ?_⟩
    intro tree' htree'
    obtain rfl := compiled.unique htree'
    exact ⟨rfl, printed_singleton _⟩
  · intro _ go path data
    exact absurd stop (not_stopped go data)

/-- The rows that are put out are those of the records on which the condition holds. -/
theorem staged_of_bound {table : Table} {condition : Condition} (compiled : r.Compiles contents tree)
    (go : r.treeOnly = false) (data : r.data = some path)
    (loaded : (loadTable contents path).run = .ok table)
    (bound : table.bind Table.vocabulary tree = .ok condition) :
    r.Staged contents (.finished (toString tree :: rowLines table condition))
      (r.grammar.toList ++ [path]) := by
  constructor
  · exact .inl rfl
  · nofun
  · intro hstop
    exact absurd hstop (not_stopped go data)
  · intro _ _ path' data'
    rw [data] at data'
    cases data'
    obtain ⟨records, hrecords, hload, rfl⟩ := loadTable_eq_ok_iff.1 loaded
    refine ⟨tree, records, condition, compiled, hrecords, hload, bound, ?_⟩
    show printed (toString tree :: rowLines (tableOf records) condition) = _
    rw [rowLines, Dataset.select_tableOf, List.map_map]
    rfl

theorem staged_of_ends {outcome : Outcome} {paths : List String} (h : r.Ends contents outcome paths) :
    r.Staged contents outcome paths := by
  cases h with
  | unsettled settings =>
    apply staged_of_not_compiles
    rintro tree ⟨settings', hload, -⟩
    rw [← loadSettings_eq_ok_iff, settings] at hload
    cases hload
  | uncompiled settled refused =>
    apply staged_of_not_compiles
    rintro tree ⟨settings', hload, hcompile⟩
    rw [← loadSettings_eq_ok_iff, settled] at hload
    cases hload
    rw [refused] at hcompile
    cases hcompile
  | shown compiled stop => exact staged_of_stopped compiled stop
  | unloaded compiled go data table =>
    apply staged_of_not_bound compiled go data
    intro table' condition hload
    rw [table] at hload
    cases hload
  | unbound compiled go data loaded refused =>
    apply staged_of_not_bound compiled go data
    intro table' condition hload hbind
    rw [loaded] at hload
    cases hload
    rw [refused] at hbind
    cases hbind
  | selected compiled go data loaded bound => exact staged_of_bound compiled go data loaded bound

end Request

/-- A command line whose items are known makes a request exactly if this asks for just what they say, and there
are such items wherever a request is made.  Every run of it goes through the stages in their order: it ends with the
first failure, or where nothing more is asked for, or with the rows.  The files that it reads are read at their
stages, and nothing depends on what else happens then. -/
theorem run_staged (arguments : List String) (r : Request) :
    (∀ items, Says arguments items → (Request.ofArguments arguments = .ok r ↔ r.draft.MadeOf items)) ∧
    (Request.ofArguments arguments = .ok r →
      (∃ items, Says arguments items ∧ r.draft.MadeOf items) ∧
      ∀ contents : Files Id, ∃ outcome paths, (run contents arguments).run = outcome ∧
        (∀ {m : Type → Type} [Monad m] [LawfulMonad m] (note : String → m Unit),
          Reads note (run (Files.noting note contents) arguments) outcome paths) ∧
        r.Ends contents outcome paths ∧ r.Staged contents outcome paths) := by
  refine ⟨fun items hsays => Request.ofArguments_eq_ok_iff_of_says hsays, fun h => ⟨?_, fun contents => ?_⟩⟩
  · obtain ⟨items, hsays⟩ := Request.exists_says_of_ofArguments h
    exact ⟨items, hsays, (Request.ofArguments_eq_ok_iff_of_says hsays).1 h⟩
  obtain ⟨outcome, paths, hends, hreads⟩ := r.exists_ends contents
  have hrun : ∀ {m : Type → Type} [Monad m] [LawfulMonad m] (note : String → m Unit),
      Reads note (run (Files.noting note contents) arguments) outcome paths := by
    intro m _ _ note
    rw [run, h]
    exact hreads note
  refine ⟨outcome, paths, ?_, hrun, hends, Request.staged_of_ends hends⟩
  -- where nothing is noted, these are the files themselves
  exact hrun (m := Id) fun _ => pure ()

/-- From a dataset with two records the filter selects the first; with `--tree` the dataset is not read, and the tree
is all that is printed. -/
theorem run_staged_withTree :
    let selecting := ["-D", "d.json", "{a} = 1"]
    let r : Request := { expression := "{a} = 1", data := some "d.json" }
    let contents : Files Id := fun path =>
      if path = "d.json" then .ok "[\x7b\"a\":1\x7d,\x7b\"a\":2\x7d]".toUTF8 else .error "No such file or directory"
    let outcome : Outcome := .finished ["[[{a}]=[1]]", "\x7b\"a\":1\x7d"]
    (Request.ofArguments selecting = .ok r ∧ (run contents selecting).run = outcome ∧
      ∃ paths, r.Ends contents outcome paths ∧ r.Staged contents outcome paths) ∧
    (Request.ofArguments ("--tree" :: selecting) = .ok { r with treeOnly := true } ∧
      (run contents ("--tree" :: selecting)).run = .finished ["[[{a}]=[1]]"] ∧
      ∀ note : String → StateM (List String) Unit,
        Reads note (run (Files.noting note contents) ("--tree" :: selecting)) (.finished ["[[{a}]=[1]]"]) []) := by
  intro selecting r contents outcome
  have hselecting : Says selecting [.file .data "d.json" (by decide), .expression "{a} = 1"] := by
    refine .consFile (.lettersAwaited [] .data) (by decide) (by decide) ?_
    exact .cons (.expression (by decide)) .nil
  have htree : Says ("--tree" :: selecting)
      [.flag .tree, .file .data "d.json" (by decide), .expression "{a} = 1"] :=
    .cons (.flag .tree) hselecting
  constructor
  · obtain ⟨hsaid, hruns⟩ := run_staged selecting r
    have hrequest := (hsaid _ hselecting).2 ⟨rfl, rfl, rfl, rfl, rfl⟩
    have houtcome : (run contents selecting).run = outcome := by decide +kernel
    obtain ⟨outcome', paths, hrun, -, hends, hstaged⟩ := (hruns hrequest).2 contents
    obtain rfl : outcome' = outcome := hrun.symm.trans houtcome
    exact ⟨hrequest, houtcome, paths, hends, hstaged⟩
  · obtain ⟨hsaid, hruns⟩ := run_staged ("--tree" :: selecting) { r with treeOnly := true }
    have hrequest := (hsaid _ htree).2 ⟨rfl, rfl, rfl, rfl, rfl⟩
    have houtcome : (run contents ("--tree" :: selecting)).run = .finished ["[[{a}]=[1]]"] := by decide +kernel
    obtain ⟨outcome', paths, hrun, hreads, -, hstaged⟩ := (hruns hrequest).2 contents
    obtain rfl := hrun.symm.trans houtcome
    obtain ⟨rfl, -⟩ := hstaged.stopped (.inl rfl)
    exact ⟨hrequest, houtcome, fun note => hreads note⟩

end FilterLang.Command
