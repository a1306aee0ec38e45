import Whistleblower.Foundations.Process
import Whistleblower.Foundations.Decimal
import Whistleblower.Foundations.TextBytes
import Whistleblower.Indexer.Cid
import Mathlib.Data.Finset.Insert

/-!
# What the batch anchor does to the outside

The operations through which `batch-anchor` touches the world: reading the queue file, asking the
delivery bridge, four SQL statements, the clock, sleeping, and running `spel`. Each is answered with
what the Rust call returns. Printing is left out, since nothing reads it.

The functions here are the thin wrappers of `batch-anchor-cli/src/main.rs` around these operations.
An error of an operation ends the run (`?`), so each wrapper passes it on.
-/

namespace Whistleblower.BatchAnchor

/-- Why `read_to_string` failed. -/
inductive IoError where
  /-- `ErrorKind::NotFound`. -/
  | notFound
  | other

/-- What running a command gave. -/
structure Output where
  success : Bool
  /-- The `Debug` text of the exit code. -/
  code : String
  stderr : String

/-- A call of `spel -- anchor-batch`: binary, working directory, IDL, and the values of the three
list arguments. -/
structure SpelCommand where
  spelBin : String
  workdir : String
  idl : String
  entriesCids : String
  entriesMetaHashes : String
  entriesTimestamps : String

inductive Op where
  | readToString (path : String)
  /-- `reqwest::get` and the text of the response body. -/
  | httpGet (url : String)
  /-- `SELECT COUNT(*) FROM anchored WHERE cid = ?1` -/
  | countAnchored (cid : String)
  /-- `INSERT OR IGNORE INTO anchored (cid) VALUES (?1)` -/
  | insertAnchored (cid : String)
  /-- `SELECT value FROM state WHERE key = 'cursor'` -/
  | selectCursor
  /-- `INSERT OR REPLACE INTO state (key, value) VALUES ('cursor', ?1)` -/
  | replaceCursor (value : String)
  /-- Seconds since the epoch. -/
  | now
  | sleep (seconds : ℕ)
  | spel (command : SpelCommand)

/-- What an operation answers. -/
abbrev Op.Ret : Op → Type
  | readToString _ => Except IoError String
  | httpGet _ => Except String String
  | countAnchored _ => Except String ℕ
  | insertAnchored _ => Except String Unit
  | selectCursor => Except String (Option String)
  | replaceCursor _ => Except String Unit
  | now => UInt64
  | sleep _ => Unit
  | spel _ => Except String Output

/-- A program of `batch-anchor`. Errors are the texts of `anyhow` errors. -/
abbrev Proc (α : Type) := Process Op.Ret String α

/-- `SystemTime::now()`, as seconds since the epoch. -/
def now : Proc UInt64 :=
  .op .now .pure

/-- `tokio::time::sleep`. -/
def sleep (seconds : ℕ) : Proc Unit :=
  .op (.sleep seconds) .pure

/-! ### SQLite state -/

/-- `is_anchored`. -/
def isAnchored (cid : String) : Proc Bool :=
  .op (.countAnchored cid) fun n ↦ .ofExcept (n.map (0 < ·))

/-- `mark_anchored`. -/
def markAnchored (cid : String) : Proc Unit :=
  .op (.insertAnchored cid) .ofExcept

/-- The cursor a cell of the `state` table holds: no cell, and text that is no number, are 0. -/
def cursorOfCell (cell : Option String) : UInt64 :=
  (cell.bind Decimal.parse).getD 0

/-- `load_cursor`. -/
def loadCursor : Proc UInt64 :=
  .op .selectCursor fun val ↦ .ofExcept (val.map cursorOfCell)

/-- `save_cursor`. -/
def saveCursor (cursor : UInt64) : Proc Unit :=
  .op (.replaceCursor (Decimal.render cursor)) .ofExcept

/-- The state DB: the rows of `anchored`, and the `cursor` cell of `state`. -/
structure Db where
  anchored : Finset String
  cursorCell : Option String

namespace Db

/-- `open_db` on a path where nothing is. -/
def fresh : Db := ⟨∅, none⟩

/-- The persisted cursor, as `load_cursor` reads it. -/
def cursor (db : Db) : UInt64 :=
  cursorOfCell db.cursorCell

/-- The row added by `mark_anchored`. -/
def mark (db : Db) (cid : String) : Db :=
  { db with anchored := insert cid db.anchored }

/-- The cell written by `save_cursor`. -/
def setCell (db : Db) (value : String) : Db :=
  { db with cursorCell := some value }

@[simp] theorem cursor_fresh : fresh.cursor = 0 := rfl

@[simp] theorem anchored_mark (db : Db) (cid : String) :
    (db.mark cid).anchored = insert cid db.anchored := rfl

@[simp] theorem cursor_mark (db : Db) (cid : String) : (db.mark cid).cursor = db.cursor := rfl

@[simp] theorem anchored_setCell (db : Db) (value : String) :
    (db.setCell value).anchored = db.anchored := rfl

@[simp] theorem cursorCell_setCell (db : Db) (value : String) :
    (db.setCell value).cursorCell = some value := rfl

end Db

theorem cursorOfCell_render (cursor : UInt64) :
    cursorOfCell (some (Decimal.render cursor)) = cursor := by
  rw [cursorOfCell, Option.bind_some, Decimal.parse_render, Option.getD_some]

/-- **A saved cursor is the one that is loaded.** -/
@[simp] theorem Db.cursor_setCell_render (db : Db) (cursor : UInt64) :
    (db.setCell (Decimal.render cursor)).cursor = cursor :=
  cursorOfCell_render cursor

end Whistleblower.BatchAnchor
