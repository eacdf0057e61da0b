import Mathlib.Algebra.Group.Int.Defs
import WireTap.Wire.Sample
import WireTap.Cache.Sqlite

/-!
# The rows of the cache

The columns `SqliteCache` stores a sample in, and what it reads back from them.  The three kinds of
sample share one set of columns, the Python's and three added since: a Modbus message has its unit
and function code in `arb_id`, a raw chunk its read sequence, and `dlc` is read back for a remote
frame only.

What SQLite is bound is what it returns; `get` has the types `rusqlite` takes a value for.  The
`REAL` column's floating point is a parameter: `toSecs` and `fromSecs` over a type of seconds.
-/

namespace WireTap

open Wire

/-- A value of a column: `rusqlite::types::Value`, its reals in `ρ`. -/
inductive SqlValue (ρ : Type) where
  | null
  | integer (i : Int)
  | real (x : ρ)
  | text (s : String)
  | blob (bytes : Bytes)
  deriving DecidableEq

/-- Why a row cannot be read: the column, counted as `oldest` selects them, and what is wrong. -/
inductive RowError where
  | invalidType (column : Nat)
  | outOfRange (column : Nat) (i : Int)
  /-- A tag this build cannot carry. -/
  | noSample
  deriving DecidableEq

namespace SqlValue

variable {ρ : Type}

def ofBool (b : Bool) : SqlValue ρ := .integer (if b then 1 else 0)

def ofU8 (n : UInt8) : SqlValue ρ := .integer n.toNat

def ofU32 (n : UInt32) : SqlValue ρ := .integer n.toNat

def getInt (column : Nat) : SqlValue ρ → Except RowError Int
  | .integer i => .ok i
  | _ => .error (.invalidType column)

def getBool (column : Nat) (v : SqlValue ρ) : Except RowError Bool :=
  (v.getInt column).map fun i => i ≠ 0

def getU8 (column : Nat) (v : SqlValue ρ) : Except RowError UInt8 := do
  let i ← v.getInt column
  if 0 ≤ i ∧ i < 2 ^ 8 then .ok (.ofNat i.toNat) else .error (.outOfRange column i)

def getU32 (column : Nat) (v : SqlValue ρ) : Except RowError UInt32 := do
  let i ← v.getInt column
  if 0 ≤ i ∧ i < 2 ^ 32 then .ok (.ofNat i.toNat) else .error (.outOfRange column i)

/-- A column declared `REAL` never holds an integer. -/
def getReal (column : Nat) : SqlValue ρ → Except RowError ρ
  | .real x => .ok x
  | _ => .error (.invalidType column)

def getBlob (column : Nat) : SqlValue ρ → Except RowError Bytes
  | .blob bytes => .ok bytes
  | _ => .error (.invalidType column)

/-- `get::<_, Option<_>>`. -/
def getOption {τ : Type} (get : SqlValue ρ → Except RowError τ) : SqlValue ρ →
    Except RowError (Option τ)
  | .null => .ok none
  | v => (get v).map some

/-- `get_ref(..)?.as_str().ok()`. -/
def asStr : SqlValue ρ → Option String
  | .text s => some s
  | _ => none

end SqlValue

/-- A row of `frames`, less its id. -/
structure Row (ρ : Type) where
  ts : SqlValue ρ
  extended : SqlValue ρ
  isFd : SqlValue ρ
  arbId : SqlValue ρ
  dlc : SqlValue ρ
  data : SqlValue ρ
  bus : SqlValue ρ
  dir : SqlValue ρ
  protocol : SqlValue ρ
  crcValid : SqlValue ρ
  flags : SqlValue ρ
  deriving DecidableEq

/-- A row the Python wrote. -/
structure PythonRow (ρ : Type) where
  ts : ρ
  extended : Bool
  isFd : Bool
  arbId : UInt32
  dlc : UInt8
  data : Bytes
  bus : UInt8
  /-- Whatever `--pg-dir` said. -/
  dir : String
  deriving DecidableEq

/-- The row in a file widened by `open_conn`: the columns it had not take their defaults. -/
def PythonRow.widen {ρ : Type} (p : PythonRow ρ) : Row ρ where
  ts := .real p.ts
  extended := .ofBool p.extended
  isFd := .ofBool p.isFd
  arbId := .ofU32 p.arbId
  dlc := .ofU8 p.dlc
  data := .blob p.data
  bus := .ofU8 p.bus
  dir := .text p.dir
  protocol := .text "can"
  crcValid := .null
  flags := .null

/-- Seconds since the epoch, as the Python stored them: the floating point of the `REAL` column. -/
structure Secs (ρ : Type) where
  toSecs (tsUs : Int) : ρ
  fromSecs (ts : ρ) : Int

section

variable {φ κ ρ : Type} (can : CanLib φ) (protocol : ProtocolLib φ κ) (secs : Secs ρ)

/-- What `append` binds for a sample. -/
def rowOf (s : Sample) : Row ρ :=
  match s with
  | .can c =>
    let frame := canFrame can c
    { ts := .real (secs.toSecs c.tsUs)
      extended := .ofBool c.extended
      isFd := .ofBool c.isFd
      arbId := .ofU32 c.arbId
      -- A data frame's is for the Python, a remote frame's is read back.
      dlc := .ofU8 (can.dlc frame)
      data := .blob c.data
      bus := .ofU8 c.bus
      dir := .text c.dir.asStr
      protocol := .text (protocol.asStr s.protocol)
      crcValid := .null
      flags := .ofU8 (can.flagsOf frame false) }
  | .modbus m =>
    { ts := .real (secs.toSecs m.tsUs)
      extended := .ofBool false
      isFd := .ofBool false
      arbId := .ofU32 (protocol.modbusId m.unit m.func)
      dlc := .integer m.raw.length
      data := .blob m.raw
      bus := .ofU8 m.bus
      dir := .text Direction.rx.asStr
      protocol := .text (protocol.asStr s.protocol)
      crcValid := .ofBool m.crcValid
      flags := .null }
  | .serial r =>
    { ts := .real (secs.toSecs r.tsUs)
      extended := .ofBool false
      isFd := .ofBool false
      arbId := .ofU32 r.seq
      dlc := .integer r.data.length
      data := .blob r.data
      bus := .ofU8 r.bus
      dir := .text Direction.rx.asStr
      protocol := .text (protocol.asStr s.protocol)
      crcValid := .null
      flags := .null }

/-- The direction a row says; an unreadable one is `rx`. -/
def Row.direction (r : Row ρ) : Direction := (r.dir.asStr.bind Direction.fromStr).getD .rx

/-- What `oldest` makes of a row. -/
def readRow (r : Row ρ) : Except RowError Sample := do
  let tsUs := secs.fromSecs (← r.ts.getReal 1)
  let bus ← r.bus.getU8 6
  match r.protocol.asStr.bind protocol.parse with
  | some .modbusRtu =>
    let (unit, func) := protocol.modbusUnitFunc (← r.arbId.getU32 4)
    let crcValid := (← r.crcValid.getOption (·.getBool 9)).getD false
    let raw ← r.data.getBlob 5
    return .modbus { tsUs, bus, unit, func, crcValid, raw }
  | some .serial =>
    let seq ← r.arbId.getU32 4
    let data ← r.data.getBlob 5
    return .serial { tsUs, bus, seq, data }
  | none => .error .noSample
  | some .can =>
    let flags := (← r.flags.getOption (·.getU8 10)).getD 0
    let extended ← r.extended.getBool 2
    let isFd ← r.isFd.getBool 3
    -- A remote frame has no data to take its length from.
    let rtr ← if can.hasRtr flags then (r.dlc.getU8 11).map some else .ok none
    let arbId ← r.arbId.getU32 4
    let data ← r.data.getBlob 5
    return .can {
      tsUs, arbId, extended, isFd, rtr, brs := can.hasBrs flags, esi := can.hasEsi flags, data, bus,
      dir := r.direction }

/-- Why `oldest` failed: the query did, or a row of it cannot be read. -/
inductive OldestError where
  | query (e : CacheError)
  | row (e : RowError)
  deriving DecidableEq

/-- A row as `oldest` returns it. -/
def readCached (r : Cached (Row ρ)) : Except OldestError (Cached Sample) :=
  match readRow can protocol secs r.sample with
  | .ok sample => .ok ⟨r.id, sample⟩
  | .error e => .error (.row e)

/-- The rows of the disk cache: what `append` stores, and what `oldest` can read. -/
def sampleRows : RowFormat (Row ρ) Sample where
  write := rowOf can protocol secs
  read r := (readRow can protocol secs r).toOption

namespace SqliteCache

/-- `append`, a row for each sample. -/
def appendSamples (c : SqliteCache (Row ρ)) (frames : List Sample) :
    Except CacheError Nat × SqliteCache (Row ρ) :=
  c.append (frames.map (rowOf can protocol secs))

/-- `oldest`: the first row that cannot be read fails it. -/
def oldestSamples (c : SqliteCache (Row ρ)) (limit : Nat) :
    Except OldestError (List (Cached Sample)) × SqliteCache (Row ρ) :=
  match c.oldest limit with
  | (.error e, c') => (.error (.query e), c')
  | (.ok rows, c') => (rows.mapM (readCached can protocol secs), c')

end SqliteCache

end

end WireTap
