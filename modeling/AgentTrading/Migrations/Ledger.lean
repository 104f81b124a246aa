import AgentTrading.Migrations.Runner

/-! What the ledger says, whatever boots run side by side and wherever they break off: a name is
in it only if it was there from the start, was marked by a bootstrap, or its script was gone
through; scripts are executed only behind their predecessors; and a boot that returns leaves no
file of its directory unrecorded. -/
namespace AgentTrading.Migrations
open Library

/-- There was nothing to execute, or it was executed and passed. -/
def Settled (db : Database) (file : SqlFile) : Prop :=
  file.blank = true ∨ ∃ result, .ran file result ∈ db.history ∧ passed result = true

/-- The other boots only add to the ledger and to the history. -/
structure Extends (db later : Database) : Prop where
  ledger : db.ledger ⊆ later.ledger
  history : db.history ⊆ later.history

theorem Extends.refl (db : Database) : Extends db db :=
  ⟨List.Subset.refl _, List.Subset.refl _⟩

theorem Extends.trans (a b c : Database) (h : Extends a b) (h' : Extends b c) : Extends a c :=
  ⟨List.Subset.trans h.ledger h'.ledger, List.Subset.trans h.history h'.history⟩

theorem Settled.later {db later : Database} {file : SqlFile} (h : Settled db file)
    (hlater : Extends db later) : Settled later file := by
  rcases h with hblank | ⟨result, hran, hpassed⟩
  · exact Or.inl hblank
  · exact Or.inr ⟨result, hlater.history hran, hpassed⟩

/-- Every file of the directory with a smaller name is recorded. -/
def PredecessorsRecorded (directory : List SqlFile) (file : SqlFile) (db : Database) : Prop :=
  ∀ g ∈ directory, g.name < file.name → g.name ∈ db.ledger

/-- How a boot of a directory uses the database. -/
def Orderly (directory : List SqlFile) (_ : ScriptRun) (op : DbOp) (db : Database) : Prop :=
  match op with
  | .backfill names => ∀ name ∈ names, name ≤ ledgerBootstrapCutoffFilename
  | .execute file =>
    file ∈ directory ∧ file.blank = false ∧ PredecessorsRecorded directory file db
  | .record file => file ∈ directory ∧ Settled db file ∧ PredecessorsRecorded directory file db
  | _ => True

/-- A boot that has returned has left every file of its directory in the ledger. -/
def Complete (directory : List SqlFile) (result : Except PostgresError Unit)
    (db : Database) : Prop :=
  result = .ok () → ∀ f ∈ directory, f.name ∈ db.ledger

theorem exec_extends (script : ScriptRun) (op : DbOp) (db : Database) :
    Extends db (exec script op db).2 := by
  cases op with
  | backfill names =>
    constructor
    · intro name hname
      exact mem_foldl_insertFilename.mpr (Or.inl hname)
    · exact List.subset_cons_self _ _
  | record file =>
    constructor
    · intro name hname
      exact mem_insertFilename.mpr (Or.inl hname)
    · exact List.subset_cons_self _ _
  | execute file => exact ⟨List.Subset.refl _, List.subset_cons_self _ _⟩
  | _ => exact Extends.refl db

section Boot

/-- Safe as a boot of the directory among others. -/
abbrev Boots (directory : List SqlFile) (p : Code Unit) (db : Database) : Prop :=
  Program.Safe exec Extends (fun _ _ _ => True) (Orderly directory) (Complete directory) p db

/-- What the loop knows when `rest` is left: the rest of the directory is recorded. -/
structure Remaining (directory rest : List SqlFile) (db : Database) : Prop where
  among : ∀ f ∈ rest, f ∈ directory
  sorted : rest.Pairwise fun f g => f.name ≤ g.name
  recorded : ∀ g ∈ directory, g ∈ rest ∨ g.name ∈ db.ledger

variable {directory rest : List SqlFile} {file : SqlFile} {applied : List String} {db : Database}

theorem Remaining.later {later : Database} (h : Remaining directory rest db)
    (hlater : Extends db later) : Remaining directory rest later :=
  ⟨h.among, h.sorted, fun g hg => (h.recorded g hg).imp_right fun hmem => hlater.ledger hmem⟩

theorem Remaining.tail (h : Remaining directory (file :: rest) db)
    (hrecorded : file.name ∈ db.ledger) : Remaining directory rest db := by
  refine ⟨fun f hf => h.among f (List.mem_cons_of_mem _ hf), h.sorted.tail, fun g hg => ?_⟩
  rcases h.recorded g hg with hmem | hmem
  · rcases List.mem_cons.mp hmem with rfl | hmem
    · exact Or.inr hrecorded
    · exact Or.inl hmem
  · exact Or.inr hmem

theorem Remaining.predecessors (h : Remaining directory (file :: rest) db) :
    PredecessorsRecorded directory file db := by
  intro g hg hlt
  rcases h.recorded g hg with hmem | hmem
  · -- what is left has no smaller name
    rcases List.mem_cons.mp hmem with rfl | hmem
    · exact absurd hlt (lt_irrefl _)
    · exact absurd hlt (not_lt.mpr (List.rel_of_pairwise_cons h.sorted hmem))
  · exact hmem

/-- The head of the list has been gone through: it is recorded and the loop goes on. -/
theorem record_boots (h : Remaining directory (file :: rest) db) (hsettled : Settled db file)
    (hrest : ∀ later, Extends db later → Remaining directory rest later →
      Boots directory (applyPending applied rest) later) :
    Boots directory (.call (.record file) fun _ => applyPending applied rest) db := by
  intro later c hlater _
  have hremaining := h.later hlater
  refine ⟨⟨h.among file List.mem_cons_self, hsettled.later hlater, hremaining.predecessors⟩, ?_⟩
  have hnext := exec_extends c (.record file) later
  apply hrest _ (hlater.trans _ _ _ hnext)
  apply (hremaining.later hnext).tail
  exact mem_insertFilename.mpr (Or.inr rfl)

theorem raiseUnlessDuplicate_boots {result : Except PostgresError Unit} {next : Code Unit}
    (h : passed result = true → Boots directory next db) :
    Boots directory ((raiseUnlessDuplicate result).bind fun _ => next) db := by
  cases result with
  | ok u => exact h rfl
  | error e =>
    unfold raiseUnlessDuplicate
    dsimp only
    split
    next hduplicate => exact h hduplicate
    next => exact fun later _ hok => nomatch hok

theorem applyPending_boots (h : Remaining directory rest db) (happlied : applied ⊆ db.ledger) :
    Boots directory (applyPending applied rest) db := by
  induction rest generalizing db with
  | nil =>
    intro later hlater _ f hf
    rcases h.recorded f hf with hmem | hmem
    · cases hmem
    · exact hlater.ledger hmem
  | cons file rest ih =>
    rw [applyPending]
    split
    next hmem => exact ih (h.tail (happlied hmem)) happlied
    next hpending =>
      have hgo : ∀ later, Extends db later → Remaining directory rest later →
          Boots directory (applyPending applied rest) later := fun later hlater hremaining =>
        ih hremaining (List.Subset.trans happlied hlater.ledger)
      unfold runMigration
      split
      next hblank => exact record_boots h (Or.inl hblank) hgo
      next hnotblank =>
        intro later c hlater _
        have hremaining := h.later hlater
        refine ⟨⟨h.among file List.mem_cons_self, by simpa using hnotblank,
          hremaining.predecessors⟩, ?_⟩
        have hnext := exec_extends c (.execute file) later
        have hran : .ran file c.result ∈ (exec c (.execute file) later).2.history :=
          List.mem_cons_self
        have hpass : passed c.result = true → Boots directory
            (.call (.record file) fun _ => applyPending applied rest)
            (exec c (.execute file) later).2 := by
          intro hpassed
          apply record_boots (hremaining.later hnext) (Or.inr ⟨c.result, hran, hpassed⟩)
          intro t ht hremaining
          exact hgo t (hlater.trans _ _ _ (hnext.trans _ _ _ ht)) hremaining
        exact raiseUnlessDuplicate_boots hpass

theorem sorted_remaining (db : Database) : Remaining directory (sorted directory) db := by
  refine ⟨fun f hf => (List.mem_insertionSort _).mp hf, ?_, fun g hg =>
    Or.inl ((List.mem_insertionSort _).mpr hg)⟩
  have : IsTrans SqlFile fun f g => f.name ≤ g.name := ⟨fun _ _ _ => le_trans⟩
  have : Std.Total fun f g : SqlFile => f.name ≤ g.name := ⟨fun f g => le_total f.name g.name⟩
  exact List.pairwise_insertionSort _ _

theorem bootstrapNames_le (files : List SqlFile) :
    ∀ name ∈ bootstrapNames files, name ≤ ledgerBootstrapCutoffFilename := by
  intro name hname
  simpa using (List.mem_filter.mp hname).2

theorem bootstrapLedgerIfNeeded_boots {files : List SqlFile} {next : Code Unit}
    (h : ∀ later, Boots directory next later) :
    Boots directory ((bootstrapLedgerIfNeeded files).bind fun _ => next) db := by
  intro counted _ _ _
  refine ⟨trivial, ?_⟩
  by_cases hexisting : counted.ledger.length ≠ 0
  · simp only [exec, Program.ret_bind, if_pos hexisting, Program.pure_eq]
    exact h counted
  simp only [exec, Program.ret_bind, if_neg hexisting]
  intro looked _ _ _
  refine ⟨trivial, ?_⟩
  cases hclients : looked.clients with
  | false =>
    simp only [exec, Program.ret_bind, hclients, Bool.not_false, if_true, Program.pure_eq]
    exact h looked
  | true =>
    simp only [exec, Program.ret_bind, hclients, Bool.not_true, Bool.false_eq_true, if_false,
      Program.pure_eq]
    by_cases hnames : bootstrapNames files = []
    · simp only [if_pos hnames, Program.ret_bind]
      exact h looked
    · simp only [if_neg hnames]
      intro later _ _ _
      exact ⟨bootstrapNames_le files, h _⟩

theorem runAllMigrations_boots (directory : List SqlFile) (db : Database) :
    Boots directory (runAllMigrations directory) db := by
  unfold runAllMigrations
  split
  next hempty =>
    intro later _ _ f hf
    rw [hempty] at hf
    cases hf
  next =>
    intro ensured _ _ _
    refine ⟨trivial, bootstrapLedgerIfNeeded_boots ?_⟩
    intro later read c _ _
    exact ⟨trivial, applyPending_boots (sorted_remaining read) (List.Subset.refl _)⟩

end Boot

/-! Any boots of any directories, in any interleaving, each broken off anywhere. -/

/-- Where a name of the ledger is from. -/
def Origin (initial : List String) (history : List Entry) (name : String) : Prop :=
  name ∈ initial ∨ (∃ names, .backfilled names ∈ history ∧ name ∈ names) ∨
    ∃ file, .recorded file ∈ history ∧ file.name = name

theorem Origin.later {initial : List String} {history longer : List Entry} {name : String}
    (h : Origin initial history name) (hlonger : history ⊆ longer) :
    Origin initial longer name := by
  rcases h with h | ⟨names, hnames, hmem⟩ | ⟨file, hfile, rfl⟩
  · exact Or.inl h
  · exact Or.inr (Or.inl ⟨names, hlonger hnames, hmem⟩)
  · exact Or.inr (Or.inr ⟨file, hlonger hfile, rfl⟩)

structure Accounted (initial : List String) (db : Database) : Prop where
  ledger : ∀ name ∈ db.ledger, Origin initial db.history name
  backfilled : ∀ names, .backfilled names ∈ db.history →
    ∀ name ∈ names, name ≤ ledgerBootstrapCutoffFilename
  recorded : ∀ file, .recorded file ∈ db.history → Settled db file

theorem exec_accounted {initial : List String} (directory : List SqlFile) (script : ScriptRun)
    (op : DbOp) (db : Database) (h : Accounted initial db)
    (hop : Orderly directory script op db) : Accounted initial (exec script op db).2 := by
  have hextends := exec_extends script op db
  have horigin : ∀ name ∈ db.ledger, Origin initial (exec script op db).2.history name :=
    fun name hname => (h.ledger name hname).later hextends.history
  have hsettled : ∀ file, .recorded file ∈ db.history → Settled (exec script op db).2 file :=
    fun file hfile => (h.recorded file hfile).later hextends
  cases op with
  | backfill names =>
    refine ⟨fun name hname => ?_, fun ns hns => ?_, fun file hfile => ?_⟩
    · rcases mem_foldl_insertFilename.mp hname with hold | hnew
      · exact horigin name hold
      · exact Or.inr (Or.inl ⟨names, List.mem_cons_self, hnew⟩)
    · rcases List.mem_cons.mp hns with heq | hold
      · cases heq
        exact hop
      · exact h.backfilled ns hold
    · rcases List.mem_cons.mp hfile with heq | hold
      · cases heq
      · exact hsettled file hold
  | record file =>
    refine ⟨fun name hname => ?_, fun ns hns => ?_, fun other hother => ?_⟩
    · rcases mem_insertFilename.mp hname with hold | rfl
      · exact horigin name hold
      · exact Or.inr (Or.inr ⟨file, List.mem_cons_self, rfl⟩)
    · rcases List.mem_cons.mp hns with heq | hold
      · cases heq
      · exact h.backfilled ns hold
    · rcases List.mem_cons.mp hother with heq | hold
      · cases heq
        exact hop.2.1.later hextends
      · exact hsettled other hold
  | execute file =>
    refine ⟨horigin, fun ns hns => ?_, fun other hother => ?_⟩
    · rcases List.mem_cons.mp hns with heq | hold
      · cases heq
      · exact h.backfilled ns hold
    · rcases List.mem_cons.mp hother with heq | hold
      · cases heq
      · exact hsettled other hold
  | _ => exact h

section Runs

variable {initial : Database} (es : List (Pool.Event (List SqlFile) ScriptRun))

theorem runs_promised (hinitial : initial.history = []) :
    Pool.Promised exec Extends Orderly Complete (Accounted initial.ledger)
      (Pool.run exec runAllMigrations (Pool.idle initial) es) := by
  apply Pool.run_promised Extends.refl Extends.trans
    (fun directory db _ => runAllMigrations_boots directory db)
    (fun directory c op db h hop => ⟨exec_accounted directory c op db h hop, exec_extends c op db⟩)
  apply Pool.promised_idle
  constructor
  · exact fun name hname => Or.inl hname
  · simp [hinitial]
  · simp [hinitial]

/-- A name is in the ledger only if it was there from the start, if a bootstrap marked it and it
does not lie beyond the cutoff, or if its script passed or was blank. A failed script is never
taken for an applied one. -/
theorem ledger_accounted (hinitial : initial.history = []) {name : String}
    (hname : name ∈ (Pool.run exec runAllMigrations (Pool.idle initial) es).shared.ledger) :
    name ∈ initial.ledger ∨
    (name ≤ ledgerBootstrapCutoffFilename ∧ ∃ names, name ∈ names ∧ .backfilled names ∈
      (Pool.run exec runAllMigrations (Pool.idle initial) es).shared.history) ∨
    ∃ file, file.name = name ∧
      Settled (Pool.run exec runAllMigrations (Pool.idle initial) es).shared file := by
  have h := (runs_promised es hinitial).shared
  rcases h.ledger name hname with hfirst | ⟨names, hnames, hmem⟩ | ⟨file, hfile, rfl⟩
  · exact Or.inl hfirst
  · exact Or.inr (Or.inl ⟨h.backfilled names hnames name hmem, names, hmem, hnames⟩)
  · exact Or.inr (Or.inr ⟨file, rfl, h.recorded file hfile⟩)

def sampleFile : SqlFile := ⟨"0001_initial_schema.sql", "CREATE TABLE trading.clients ();"⟩

def sampleSecond : SqlFile :=
  ⟨"0002_add_version_column.sql", "ALTER TABLE trading.order_requests ADD COLUMN version INT;"⟩

/-- Out of order, and with a file of blanks. -/
def sampleEarly : List SqlFile := [sampleSecond, ⟨"0000_placeholder.sql", " \n"⟩, sampleFile]

/-- Two boots side by side; the one that comes to the second script first finds it broken, and the
other goes on. -/
def sampleBoot : List (Pool.Event (List SqlFile) ScriptRun) :=
  .start 0 sampleEarly :: .start 1 sampleEarly ::
    ((List.replicate 7 [.step 0 ⟨.ok (), true⟩, .step 1 ⟨.ok (), true⟩]).flatten ++
      [.step 0 ⟨.error (.other "syntax error"), true⟩] ++
      List.replicate 3 (.step 1 ⟨.error .duplicateColumn, true⟩))

theorem ledger_accounted_sample :
    "0002_add_version_column.sql" ∈ ({} : Database).ledger ∨
    ("0002_add_version_column.sql" ≤ ledgerBootstrapCutoffFilename ∧ ∃ names,
      "0002_add_version_column.sql" ∈ names ∧ .backfilled names ∈
        (Pool.run exec runAllMigrations (Pool.idle {}) sampleBoot).shared.history) ∨
    ∃ file, file.name = "0002_add_version_column.sql" ∧
      Settled (Pool.run exec runAllMigrations (Pool.idle {}) sampleBoot).shared file :=
  ledger_accounted sampleBoot rfl
    (show "0002_add_version_column.sql" ∈
      (Pool.run exec runAllMigrations (Pool.idle {}) sampleBoot).shared.ledger by decide +kernel)

/-- Whenever a boot executes a script, every file of its directory with a smaller name is in the
ledger, and whenever one returns, all of them are. -/
theorem boots_orderly (initial : Database) :
    Pool.Meets exec runAllMigrations (fun _ _ => True) Orderly (Pool.idle initial) es ∧
    ∀ t directory, (Pool.run exec runAllMigrations (Pool.idle initial) es).threads t =
        some (directory, .ret ()) →
      ∀ file ∈ directory,
        file.name ∈ (Pool.run exec runAllMigrations (Pool.idle initial) es).shared.ledger := by
  have hbegins : ∀ directory db, True → Program.Safe exec Extends (fun _ _ _ => True)
      (Orderly directory) (Complete directory) (runAllMigrations directory) db :=
    fun directory db _ => runAllMigrations_boots directory db
  have hkeeps : ∀ directory c op db, True → Orderly directory c op db →
      True ∧ Extends db (exec c op db).2 := fun _ c op db _ _ => ⟨trivial, exec_extends c op db⟩
  constructor
  · exact Pool.run_performs Extends.refl Extends.trans hbegins hkeeps initial trivial es
  · intro t directory ht
    have hpromised := Pool.run_promised Extends.refl Extends.trans hbegins hkeeps
      (Pool.idle initial) (Pool.promised_idle trivial) es
    exact hpromised.returned Extends.refl ht rfl

end Runs

/-- Not the script of that name. -/
def NotOf (name : String) (op : DbOp) : Prop := ∀ file, op = .execute file → file.name ≠ name

theorem runMigration_notOf {name : String} {file : SqlFile} (h : file.name ≠ name) :
    (runMigration file).Only (NotOf name) fun _ => True := by
  unfold runMigration
  split
  · trivial
  · refine ⟨fun other heq => ?_, fun result => ?_⟩
    · cases heq
      exact h
    · cases result with
      | ok u => trivial
      | error e =>
        change (raiseUnlessDuplicate (.error e)).Only _ _
        unfold raiseUnlessDuplicate
        dsimp only
        split <;> trivial

theorem applyPending_notOf {name : String} {applied : List String} (h : name ∈ applied)
    (files : List SqlFile) : (applyPending applied files).Only (NotOf name) fun _ => True := by
  induction files with
  | nil => trivial
  | cons file rest ih =>
    rw [applyPending]
    split
    next => exact ih
    next hpending =>
      have hname : file.name ≠ name := fun heq => hpending (heq ▸ h)
      refine (runMigration_notOf hname).bind (fun _ _ => ?_) fun _ _ => trivial
      exact ⟨fun _ heq => (nomatch heq), fun _ => ih⟩

theorem bootstrapLedgerIfNeeded_notOf (name : String) (files : List SqlFile) :
    (bootstrapLedgerIfNeeded files).Only (NotOf name) fun _ => True := by
  refine ⟨fun _ heq => (nomatch heq), fun existing => ?_⟩
  dsimp only [Program.bind_eq, Program.ret_bind]
  split
  · trivial
  · refine ⟨fun _ heq => (nomatch heq), fun schemaExists => ?_⟩
    dsimp only [Program.bind_eq, Program.ret_bind]
    cases schemaExists with
    | false => trivial
    | true =>
      by_cases hnames : bootstrapNames files = []
      · simp [hnames]
      · simp only [Bool.not_true, Bool.false_eq_true, if_false, if_neg hnames, Program.pure_eq]
        exact ⟨fun _ heq => (nomatch heq), fun _ => trivial⟩

/-- Once a file is in the ledger and the boots of that time are over, no boot executes its script
again, whichever directories they are for and however they interleave. -/
theorem recorded_never_again (initial : Database) {name : String} (h : name ∈ initial.ledger)
    (es : List (Pool.Event (List SqlFile) ScriptRun)) :
    Pool.Meets exec runAllMigrations (fun _ _ => True) (fun _ _ op _ => NotOf name op)
      (Pool.idle initial) es := by
  have hstable : ∀ db later, Extends db later → name ∈ db.ledger → name ∈ later.ledger :=
    fun _ _ hlater hname => hlater.ledger hname
  have hwithin : ∀ (c : ScriptRun) op db, name ∈ db.ledger → NotOf name op →
      Extends db (exec c op db).2 := fun c op db _ _ => exec_extends c op db
  have hbegins : ∀ directory, Program.SafeIn exec Extends (fun _ _ _ => True)
      (fun _ op _ => NotOf name op) (fun db => name ∈ db.ledger) (runAllMigrations directory) := by
    intro directory
    unfold runAllMigrations
    split
    · exact Program.safeIn_ret ()
    · apply Program.safeIn_call hstable hwithin
      · exact fun _ _ _ _ _ heq => nomatch heq
      · intro c db _ _ hnext
        refine Program.safeIn_bind hstable hwithin
          (bootstrapLedgerIfNeeded_notOf name (sorted directory))
            (fun _ hop _ _ _ => hop) ?_ _ hnext
        intro _ _
        apply Program.safeIn_call hstable hwithin
        · exact fun _ _ _ _ _ heq => nomatch heq
        · intro c read hread _ hnext
          -- the name is among those that were read
          exact Program.safeIn_only hstable hwithin (applyPending_notOf hread (sorted directory))
            (fun _ hop _ _ _ => hop) _ hnext
  have hkeeps : ∀ (directory : List SqlFile) (c : ScriptRun) op db, name ∈ db.ledger →
      NotOf name op → name ∈ (exec c op db).2.ledger ∧ Extends db (exec c op db).2 :=
    fun _ c op db hdb _ => ⟨hstable _ _ (exec_extends c op db) hdb, exec_extends c op db⟩
  exact Pool.run_performs Extends.refl Extends.trans hbegins hkeeps initial h es

theorem recorded_never_again_sample :
    Pool.Meets exec runAllMigrations (fun _ _ => True)
      (fun _ _ op _ => NotOf "0001_initial_schema.sql" op)
      (Pool.idle { ledger := ["0001_initial_schema.sql"] }) sampleBoot :=
  recorded_never_again { ledger := ["0001_initial_schema.sql"] } List.mem_cons_self sampleBoot

end AgentTrading.Migrations
