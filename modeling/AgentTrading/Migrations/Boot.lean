import AgentTrading.Migrations.Ledger

/-! One boot that nothing disturbs, in closed form, what follows for a fresh database and for a
second boot, and what a boot on a fresh database leaves behind when it breaks off between its
first script and the record of it. -/
namespace AgentTrading.Migrations
open Library

/-- The statements of a boot in which every script turns out in its own way. -/
def execEach (scripts : SqlFile → ScriptRun) : (op : DbOp) → Database → DbReply op × Database
  | .execute file, db => exec (scripts file) (.execute file) db
  | op, db => exec ⟨.ok (), db.clients⟩ op db

/-- What the loop does to the database for one file. -/
def applyFile (scripts : SqlFile → ScriptRun) (db : Database) (file : SqlFile) : Database :=
  if file.blank then (execEach scripts (.record file) db).2
  else (execEach scripts (.record file) (execEach scripts (.execute file) db).2).2

/-- What a bootstrap leaves. -/
def bootstrapped (files : List SqlFile) (db : Database) : Database :=
  if db.ledger = [] ∧ db.clients = true ∧ bootstrapNames files ≠ [] then
    { db with
      ledger := (bootstrapNames files).foldl insertFilename db.ledger
      history := .backfilled (bootstrapNames files) :: db.history }
  else db

/-- The files that are not in the ledger. -/
def pending (ledger : List String) (files : List SqlFile) : List SqlFile :=
  files.filter (·.name ∉ ledger)

/-- The database after a boot whose scripts all pass. -/
def booted (scripts : SqlFile → ScriptRun) (directory : List SqlFile) (db : Database) : Database :=
  if directory = [] then db
  else (pending (bootstrapped (sorted directory) db).ledger (sorted directory)).foldl
    (applyFile scripts) (bootstrapped (sorted directory) db)

variable {scripts : SqlFile → ScriptRun}

theorem bootstrapLedgerIfNeeded_run (files : List SqlFile) (db : Database) :
    (bootstrapLedgerIfNeeded files).run (execEach scripts) db =
      (.ok (), bootstrapped files db) := by
  unfold bootstrapped
  by_cases hledger : db.ledger = []
  · cases hclients : db.clients with
    | false =>
      simp [bootstrapLedgerIfNeeded, await, Program.perform, execEach, exec, hledger, hclients]
    | true =>
      by_cases hnames : bootstrapNames files = []
      · simp [bootstrapLedgerIfNeeded, await, Program.perform, execEach, exec, hledger, hclients,
          hnames]
      · simp [bootstrapLedgerIfNeeded, await, Program.perform, execEach, exec, hledger, hclients,
          hnames]
  · simp [bootstrapLedgerIfNeeded, await, Program.perform, execEach, exec, hledger]

theorem raiseUnlessDuplicate_passed {result : Except PostgresError Unit}
    (hpassed : passed result = true) : raiseUnlessDuplicate result = .ret () := by
  cases result with
  | ok u => rfl
  | error e => exact if_pos hpassed

theorem runMigration_run (file : SqlFile) (db : Database)
    (hpassed : file.blank = false → passed (scripts file).result = true) :
    (runMigration file).run (execEach scripts) db =
      (.ok (), if file.blank then db else (execEach scripts (.execute file) db).2) := by
  unfold runMigration
  split
  · rfl
  next hscript =>
    change (raiseUnlessDuplicate (scripts file).result).run (execEach scripts) _ = _
    rw [raiseUnlessDuplicate_passed (hpassed (eq_false_of_ne_true hscript))]
    rfl

theorem applyPending_run (applied : List String) (files : List SqlFile) (db : Database)
    (hpassed : ∀ file ∈ pending applied files, file.blank = false →
      passed (scripts file).result = true) :
    (applyPending applied files).run (execEach scripts) db =
      (.ok (), (pending applied files).foldl (applyFile scripts) db) := by
  induction files generalizing db with
  | nil => rfl
  | cons file rest ih =>
    rw [applyPending]
    by_cases hmem : file.name ∈ applied
    · have hskip : pending applied (file :: rest) = pending applied rest :=
        List.filter_cons_of_neg (by simpa using hmem)
      rw [hskip] at hpassed
      rw [if_pos hmem, ih db hpassed, hskip]
    · have htake : pending applied (file :: rest) = file :: pending applied rest :=
        List.filter_cons_of_pos (by simpa using hmem)
      rw [htake] at hpassed
      have hrest := fun db => ih db fun f hf => hpassed f (List.mem_cons_of_mem _ hf)
      rw [if_neg hmem, htake, List.foldl_cons]
      change ((runMigration file).bind fun _ =>
        .call (.record file) fun _ => applyPending applied rest).run (execEach scripts) db = _
      rw [Program.run_bind, runMigration_run file db (hpassed file List.mem_cons_self), applyFile]
      cases file.blank with
      | true => exact hrest _
      | false => exact hrest _

theorem runAllMigrations_run (directory : List SqlFile) (db : Database)
    (hpassed : ∀ file ∈ pending (bootstrapped (sorted directory) db).ledger (sorted directory),
      file.blank = false → passed (scripts file).result = true) :
    (runAllMigrations directory).run (execEach scripts) db =
      (.ok (), booted scripts directory db) := by
  unfold runAllMigrations booted
  split
  · rfl
  · change ((bootstrapLedgerIfNeeded (sorted directory)).bind fun _ =>
      .call .appliedFilenames fun applied => applyPending applied (sorted directory)).run
        (execEach scripts) db = _
    rw [Program.run_bind, bootstrapLedgerIfNeeded_run]
    exact applyPending_run _ _ _ hpassed

/-- The files whose scripts were executed, in order. -/
def executed (db : Database) : List SqlFile :=
  db.history.reverse.filterMap fun
    | .ran file _ => some file
    | _ => none

theorem executed_applyFile (scripts : SqlFile → ScriptRun) (db : Database) (file : SqlFile) :
    executed (applyFile scripts db file) =
      executed db ++ if file.blank then [] else [file] := by
  unfold applyFile executed execEach exec
  split <;> simp

theorem executed_foldl (scripts : SqlFile → ScriptRun) (files : List SqlFile) (db : Database) :
    executed (files.foldl (applyFile scripts) db) = executed db ++ files.filter (!·.blank) := by
  induction files generalizing db with
  | nil => simp
  | cons file rest ih =>
    rw [List.foldl_cons, ih, executed_applyFile, List.append_assoc]
    cases hblank : file.blank <;> simp [hblank]

theorem ledger_applyFile (scripts : SqlFile → ScriptRun) (db : Database) (file : SqlFile) :
    (applyFile scripts db file).ledger = insertFilename db.ledger file.name := by
  unfold applyFile execEach exec
  split <;> rfl

theorem mem_ledger_foldl (scripts : SqlFile → ScriptRun) (files : List SqlFile) (db : Database)
    {name : String} : name ∈ (files.foldl (applyFile scripts) db).ledger ↔
      name ∈ db.ledger ∨ ∃ f ∈ files, f.name = name := by
  induction files generalizing db with
  | nil => simp
  | cons file rest ih =>
    rw [List.foldl_cons, ih, ledger_applyFile, mem_insertFilename]
    constructor
    · rintro ((h | rfl) | ⟨f, hf, rfl⟩)
      · exact Or.inl h
      · exact Or.inr ⟨file, List.mem_cons_self, rfl⟩
      · exact Or.inr ⟨f, List.mem_cons_of_mem _ hf, rfl⟩
    · rintro (h | ⟨f, hf, rfl⟩)
      · exact Or.inl (Or.inl h)
      · rcases List.mem_cons.mp hf with rfl | hf
        · exact Or.inl (Or.inr rfl)
        · exact Or.inr ⟨f, hf, rfl⟩

theorem mem_ledger_booted (scripts : SqlFile → ScriptRun) {directory : List SqlFile}
    {file : SqlFile}
    (h : file ∈ directory) (db : Database) : file.name ∈ (booted scripts directory db).ledger := by
  have hne : directory ≠ [] := List.ne_nil_of_mem h
  rw [booted, if_neg hne, mem_ledger_foldl]
  by_cases hmem : file.name ∈ (bootstrapped (sorted directory) db).ledger
  · exact Or.inl hmem
  · refine Or.inr ⟨file, List.mem_filter.mpr ⟨?_, by simpa using hmem⟩, rfl⟩
    exact (List.mem_insertionSort _).mpr h

theorem booted_settled (scripts : SqlFile → ScriptRun) (directory : List SqlFile) (db : Database) :
    bootstrapped (sorted directory) (booted scripts directory db) =
      booted scripts directory db ∨ directory = [] := by
  by_cases hempty : directory = []
  · exact .inr hempty
  · obtain ⟨file, hfile⟩ := List.exists_mem_of_ne_nil _ hempty
    have hledger : (booted scripts directory db).ledger ≠ [] :=
      List.ne_nil_of_mem (mem_ledger_booted scripts hfile db)
    exact .inl (if_neg fun h => hledger h.1)

theorem pending_booted (scripts : SqlFile → ScriptRun) (directory : List SqlFile)
    (db : Database) : pending (booted scripts directory db).ledger (sorted directory) = [] := by
  rw [pending, List.filter_eq_nil_iff]
  intro f hf
  simpa using mem_ledger_booted scripts ((List.mem_insertionSort _).mp hf) db

/-- A second boot finds nothing to do, whatever its scripts would do. -/
theorem booted_twice (scripts again : SqlFile → ScriptRun) (directory : List SqlFile)
    (db : Database) :
    (runAllMigrations directory).run (execEach again) (booted scripts directory db) =
      (.ok (), booted scripts directory db) := by
  rcases booted_settled scripts directory db with hkept | rfl
  · have hnone := pending_booted scripts directory db
    rw [runAllMigrations_run, booted, hkept, hnone]
    · split <;> rfl
    · rw [hkept, hnone]
      simp
  · rfl

/-- On a fresh database a boot whose scripts pass, each in its way, executes every file that is
not blank, once and in the order of the names, and a further boot changes nothing. -/
theorem fresh_boot {scripts : SqlFile → ScriptRun} {directory : List SqlFile}
    (hpassed : ∀ file ∈ directory, file.blank = false → passed (scripts file).result = true)
    (again : SqlFile → ScriptRun) :
    ∃ db, (runAllMigrations directory).run (execEach scripts) {} = (.ok (), db) ∧
      executed db = (sorted directory).filter (!·.blank) ∧
      (∀ file ∈ directory, file.name ∈ db.ledger) ∧
      (runAllMigrations directory).run (execEach again) db = (.ok (), db) := by
  have hfresh : bootstrapped (sorted directory) {} = {} := by simp [bootstrapped]
  have hall : pending [] (sorted directory) = sorted directory := by simp [pending]
  refine ⟨booted scripts directory {}, runAllMigrations_run directory {} ?_, ?_,
    fun file hfile => mem_ledger_booted scripts hfile {}, booted_twice scripts again directory {}⟩
  · rw [hfresh, hall]
    exact fun file hfile => hpassed file ((List.mem_insertionSort _).mp hfile)
  · unfold booted
    split
    next hempty =>
      rw [hempty]
      rfl
    next =>
      rw [hfresh, hall, executed_foldl]
      rfl

def sampleThird : SqlFile :=
  ⟨"0024_add_event_history.sql", "CREATE TABLE trading.order_state_events (id UUID);"⟩

/-- Out of order, and with a file of blanks. -/
def sampleDirectory : List SqlFile :=
  [sampleThird, sampleFile, ⟨"0003_placeholder.sql", " \n"⟩, sampleSecond]

/-- The second script finds its column in place. -/
def sampleScripts (file : SqlFile) : ScriptRun :=
  ⟨if file = sampleSecond then .error .duplicateColumn else .ok (), true⟩

theorem fresh_boot_sample :
    ∃ db, (runAllMigrations sampleDirectory).run (execEach sampleScripts) {} = (.ok (), db) ∧
      executed db = [sampleFile, sampleSecond, sampleThird] ∧
      (∀ file ∈ sampleDirectory, file.name ∈ db.ledger) ∧
      (runAllMigrations sampleDirectory).run (execEach fun _ => ⟨.error (.other "broken"), true⟩)
        db = (.ok (), db) := by
  have hfiles : (sorted sampleDirectory).filter (!·.blank) =
      [sampleFile, sampleSecond, sampleThird] := by decide +kernel
  have hpassed : ∀ file ∈ sampleDirectory, file.blank = false →
      passed (sampleScripts file).result = true := by decide +kernel
  have h := fresh_boot hpassed fun _ => ⟨.error (.other "broken"), true⟩
  rwa [hfiles] at h

/-- The fresh database after its first script, which has made the clients table. -/
def unrecorded (first : SqlFile) : Database :=
  { clients := true, history := [.ran first (.ok ())] }

/-- A boot on a fresh database that breaks off when its first script has made the clients table
and is not recorded leaves a database that the next boot takes for an old one: where the scripts
past the cutoff pass, it returns with every file in the ledger, and no file up to the cutoff has
been executed but the first. -/
theorem crash_window {directory rest : List SqlFile} {first : SqlFile}
    (hsorted : sorted directory = first :: rest) (hscript : first.blank = false)
    {scripts again : SqlFile → ScriptRun} (hfirst : scripts first = ⟨.ok (), true⟩)
    (hpast : ∀ file ∈ directory, ledgerBootstrapCutoffFilename < file.name → file.blank = false →
      passed (again file).result = true) :
    (∃ k, Program.Reached (execEach scripts) (runAllMigrations directory) {}
      (.call (.record first) k) (unrecorded first)) ∧
    ∃ db, (runAllMigrations directory).run (execEach again) (unrecorded first) = (.ok (), db) ∧
      (∀ file ∈ directory, file.name ∈ db.ledger) ∧
      ∀ file ∈ executed db, file.name ≤ ledgerBootstrapCutoffFilename → file = first := by
  have hne : directory ≠ [] := by
    rintro rfl
    cases hsorted
  have hbehind : ∀ file ∈ pending (bootstrapped (sorted directory) (unrecorded first)).ledger
      (sorted directory), ledgerBootstrapCutoffFilename < file.name := by
    intro file hfile
    obtain ⟨hmem, hpending⟩ := List.mem_filter.mp hfile
    by_contra hcutoff
    -- up to the cutoff nothing is pending after the bootstrap
    have hname : file.name ∈ bootstrapNames (sorted directory) :=
      List.mem_filter.mpr ⟨List.mem_map_of_mem hmem, decide_eq_true (not_lt.mp hcutoff)⟩
    have hmarked : file.name ∈ (bootstrapped (sorted directory) (unrecorded first)).ledger := by
      rw [bootstrapped, if_pos ⟨rfl, rfl, List.ne_nil_of_mem hname⟩]
      exact mem_foldl_insertFilename.mpr (Or.inr hname)
    exact of_decide_eq_true hpending hmarked
  constructor
  · refine ⟨fun _ => applyPending [] rest, ?_⟩
    unfold runAllMigrations
    rw [if_neg hne, hsorted]
    refine .after (.after (.after (.after ?_)))
    change Program.Reached _ (applyPending [] (first :: rest)) _ _ _
    rw [applyPending, if_neg (by simp)]
    have hmigrated : (runMigration first).run (execEach scripts) {} =
        (.ok (), unrecorded first) := by
      rw [runMigration_run first {} fun _ => by rw [hfirst]; rfl]
      simp [hscript, execEach, exec, hfirst, unrecorded]
    exact Program.reached_of_run hmigrated _
  · refine ⟨_, runAllMigrations_run directory (unrecorded first) ?_,
      fun file hfile => mem_ledger_booted _ hfile _, ?_⟩
    · intro file hfile
      exact hpast file ((List.mem_insertionSort _).mp (List.mem_filter.mp hfile).1)
        (hbehind file hfile)
    intro file hfile hcutoff
    rw [booted, if_neg hne, executed_foldl, List.mem_append] at hfile
    rcases hfile with hfile | hfile
    · have honce : executed (bootstrapped (sorted directory) (unrecorded first)) = [first] := by
        unfold bootstrapped unrecorded executed
        split <;> rfl
      rw [honce] at hfile
      exact List.mem_singleton.mp hfile
    · exact absurd (hbehind file (List.mem_filter.mp hfile).1) (not_lt.mpr hcutoff)

/-- Past the cutoff, and executed by the next boot alone. -/
def sampleLast : SqlFile :=
  ⟨"0051_add_attempt_note.sql", "ALTER TABLE trading.clients ADD COLUMN note TEXT;"⟩

theorem crash_window_sample :
    (∃ k, Program.Reached (execEach sampleScripts)
      (runAllMigrations [sampleLast, sampleSecond, sampleFile]) {}
      (.call (.record sampleFile) k) (unrecorded sampleFile)) ∧
    ∃ db, (runAllMigrations [sampleLast, sampleSecond, sampleFile]).run
        (execEach fun _ => ⟨.error .duplicateColumn, true⟩) (unrecorded sampleFile) = (.ok (), db) ∧
      (∀ file ∈ [sampleLast, sampleSecond, sampleFile], file.name ∈ db.ledger) ∧
      ∀ file ∈ executed db, file.name ≤ ledgerBootstrapCutoffFilename → file = sampleFile :=
  crash_window
    (by decide +kernel : sorted [sampleLast, sampleSecond, sampleFile] =
      [sampleFile, sampleSecond, sampleLast])
    (by decide +kernel) rfl (by decide +kernel)

end AgentTrading.Migrations
