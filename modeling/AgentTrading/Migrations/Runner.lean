import AgentTrading.Kis.Numerals
import AgentTrading.Library.Promises
import AgentTrading.Library.Reached
import Mathlib.Data.List.Sort
import Mathlib.Data.String.Basic

/-! The migration runner. A boot reads the ledger of applied files once and then executes and
records the files that are not in it, one after the other; every statement is an operation of its
own, so that a boot can break off between any two and others can come in between. -/
namespace AgentTrading.Migrations
open Library

structure SqlFile where
  name : String
  sql : String
  deriving DecidableEq

/-- `not sql.strip()`. -/
def SqlFile.blank (f : SqlFile) : Bool := Kis.strip f.sql.toList = []

/-- The exceptions of a statement, as far as `run_migration` tells them apart. -/
inductive PostgresError where
  | duplicateTable
  | duplicateObject
  | duplicateColumn
  | tooManyColumns
  | other (className : String)
  deriving DecidableEq

/-- Taken for a sign that the script has been applied. -/
def PostgresError.duplicate : PostgresError → Bool
  | duplicateTable | duplicateObject | duplicateColumn => true
  | tooManyColumns | other _ => false

inductive DbOp where
  | ensureMigrationLedger
  | countLedger
  | clientsExists
  | backfill (names : List String)
  | appliedFilenames
  | execute (file : SqlFile)
  | record (file : SqlFile)

abbrev DbReply : DbOp → Type
  | .ensureMigrationLedger => Unit
  | .countLedger => Nat
  | .clientsExists => Bool
  | .backfill _ => Unit
  | .appliedFilenames => List String
  | .execute _ => Except PostgresError Unit
  | .record _ => Unit

abbrev Code (α : Type) := Program DbOp DbReply PostgresError α

abbrev await (op : DbOp) : Code (DbReply op) := Program.perform op

def ledgerBootstrapCutoffFilename : String :=
  "0050_add_order_submission_attempts_submitted_at_index.sql"

/-- The files a bootstrap marks as applied. -/
def bootstrapNames (sqlFiles : List SqlFile) : List String :=
  (sqlFiles.map (·.name)).filter (· ≤ ledgerBootstrapCutoffFilename)

def bootstrapLedgerIfNeeded (sqlFiles : List SqlFile) : Code Unit := do
  let existing ← await .countLedger
  if existing ≠ 0 then return ()
  let schemaExists ← await .clientsExists
  if !schemaExists then return ()
  if bootstrapNames sqlFiles = [] then return ()
  await (.backfill (bootstrapNames sqlFiles))

/-- The script ran to its end, or raised what is taken for the same. -/
def passed (result : Except PostgresError Unit) : Bool :=
  match result with
  | .ok () => true
  | .error e => e.duplicate

/-- The `except` clauses of `run_migration`. -/
def raiseUnlessDuplicate (result : Except PostgresError Unit) : Code Unit :=
  match result with
  | .ok () => return ()
  | .error e => if e.duplicate then return () else .raise e

def runMigration (file : SqlFile) : Code Unit :=
  if file.blank then return ()
  else do
    let result ← await (.execute file)
    raiseUnlessDuplicate result

/-- The loop of `run_all_migrations`. -/
def applyPending (applied : List String) : List SqlFile → Code Unit
  | [] => return ()
  | file :: rest =>
    if file.name ∈ applied then applyPending applied rest
    else do
      runMigration file
      await (.record file)
      applyPending applied rest

/-- `sorted(directory.glob("*.sql"))`. -/
def sorted (directory : List SqlFile) : List SqlFile :=
  directory.insertionSort fun f g => f.name ≤ g.name

def runAllMigrations (directory : List SqlFile) : Code Unit :=
  if directory = [] then return ()
  else do
    await .ensureMigrationLedger
    bootstrapLedgerIfNeeded (sorted directory)
    let applied ← await .appliedFilenames
    applyPending applied (sorted directory)

/-- What was done to it that the ledger is about. -/
inductive Entry where
  | backfilled (names : List String)
  | ran (file : SqlFile) (result : Except PostgresError Unit)
  | recorded (file : SqlFile)

/-- The ledger, whether the clients table is there, and the history, newest first. -/
structure Database where
  ledger : List String := []
  clients : Bool := false
  history : List Entry := []

/-- How a script turns out, and whether the clients table is there after it. -/
structure ScriptRun where
  result : Except PostgresError Unit
  clients : Bool

/-- `INSERT ... ON CONFLICT (filename) DO NOTHING`. -/
def insertFilename (ledger : List String) (name : String) : List String :=
  if name ∈ ledger then ledger else ledger ++ [name]

def exec (script : ScriptRun) : (op : DbOp) → Database → DbReply op × Database
  | .ensureMigrationLedger, db => ((), db)
  | .countLedger, db => (db.ledger.length, db)
  | .clientsExists, db => (db.clients, db)
  | .backfill names, db => ((), { db with
      ledger := names.foldl insertFilename db.ledger
      history := .backfilled names :: db.history })
  | .appliedFilenames, db => (db.ledger, db)
  | .execute file, db => (script.result, { db with
      clients := script.clients
      history := .ran file script.result :: db.history })
  | .record file, db => ((), { db with
      ledger := insertFilename db.ledger file.name
      history := .recorded file :: db.history })

@[simp] theorem mem_insertFilename {ledger : List String} {name other : String} :
    other ∈ insertFilename ledger name ↔ other ∈ ledger ∨ other = name := by
  unfold insertFilename
  split
  next hmem =>
    constructor
    · exact Or.inl
    · rintro (h | rfl)
      · exact h
      · exact hmem
  next => simp

@[simp] theorem mem_foldl_insertFilename {names ledger : List String} {other : String} :
    other ∈ names.foldl insertFilename ledger ↔ other ∈ ledger ∨ other ∈ names := by
  induction names generalizing ledger with
  | nil => simp
  | cons name names ih => simp [ih, or_assoc]

end AgentTrading.Migrations
