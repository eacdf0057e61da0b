import WireTap.Lib.Incremental
import WireTap.Gateway.FrameRow
import WireTap.Gateway.Routes
import WireTap.Gateway.WtarReader

/-!
# Importing a capture

`import_capture`: the body of a request is a header and then records, taken chunk by chunk as it
arrives; the rows of the records are COPYed into `capture_frame` some thousands at a time, each COPY
a statement of its own.  The next chunk is read before the rows so far are COPYed.

The format is `wslib_wiretap_protocol::import`, the parameter `ImportLib`.  What the database answers
to each COPY is part of `CopyTarget`.  The checks on the caller's key are in `WireTap.Gateway.Routes`.
Left out: how long the import took.
-/

namespace WireTap.Gateway

open Wire

/-- A record of the body; they are CAN frames all of them. -/
structure ImportRecord where
  tsUs : Int
  idFlags : UInt32
  flags : UInt8
  bus : UInt8
  payload : Bytes
  deriving DecidableEq

/-- What the gateway uses of `wslib_wiretap_protocol::import`. -/
structure ImportLib where
  /-- How long the header is. -/
  parseHeader : Bytes → Except String (Option Nat)
  parseRecord : Parse UInt8 ImportRecord
  /-- `BODY_HEADER`. -/
  bodyHeader : Nat

/-- `parse_header`, as a parser of one item. -/
def ImportLib.header (lib : ImportLib) : Parse UInt8 Unit := fun bytes =>
  (lib.parseHeader bytes).map fun found => found.map fun n => ((), n)

/-- Both parsers can be fed a piece at a time. -/
structure ImportLib.Lawful (lib : ImportLib) : Prop where
  header : Incremental lib.header
  record : Incremental lib.parseRecord

/-- A body as it arrives: its chunks, and then its end or an error. -/
structure Upload where
  chunks : List Bytes
  broken : Option String
  deriving DecidableEq

/-- `CopyError`. -/
structure CopyError where
  code : Option String
  message : String
  deriving DecidableEq

/-- `capture_frame`: what it answers to the next COPYs, each of them taken where there is no error,
and the rows of those it took. -/
structure CopyTarget where
  answers : List (Option CopyError)
  copied : List (List FrameRow)
  deriving DecidableEq

/-- How an import ends without an answer of its own: refused, or by a panic. -/
inductive ImportFault where
  | refused (e : ApiError)
  | panicked
  deriving DecidableEq

/-- `ApiError::from`, of a `QueryError` made of the `CopyError`. -/
def CopyError.answer (e : CopyError) : ApiError :=
  if Wtar.refusedTheRows e.code then ⟨400, e.message⟩ else ⟨503, e.message⟩

/-- `copy_rows`. -/
def CopyTarget.copyRows (db : CopyTarget) (rows : List FrameRow) : Option CopyError × CopyTarget :=
  match db.answers with
  | some e :: answers => (some e, { db with answers })
  | none :: answers => (none, ⟨answers, db.copied ++ [rows]⟩)
  | [] => (none, ⟨[], db.copied ++ [rows]⟩)

/-- `IMPORT_CHUNK_ROWS`. -/
def importChunkRows : Nat := 8192

section Import

variable {φ κ : Type} (lib : ImportLib) (can : CanLib φ) (protocol : ProtocolLib φ κ)

/-- The row of a record; `none` where `FrameRow::new` panics. -/
def importRow (r : ImportRecord) : Option FrameRow :=
  FrameRow.new can protocol r.tsUs ⟨.can, r.idFlags, r.flags, r.bus, r.payload⟩

/-- The loop of `import_rows`, whose records have a byte at least. -/
def importRowsLoop (buf : Bytes) : Nat → Nat → List FrameRow → Except ImportFault (Nat × List FrameRow)
  | 0, read, rows => .ok (read, rows)
  | fuel + 1, read, rows =>
    match lib.parseRecord (buf.drop read) with
    | .error e => .error (.refused (badRequest e))
    | .ok none => .ok (read, rows)
    | .ok (some (r, consumed)) =>
      match importRow can protocol r with
      | some row => importRowsLoop buf fuel (read + consumed) (rows ++ [row])
      | none => .error .panicked

/-- `import_rows`: how much of `buf` was read, and `rows` with what was pushed. -/
def importRows (buf : Bytes) (rows : List FrameRow) : Except ImportFault (Nat × List FrameRow) :=
  importRowsLoop lib can protocol buf (buf.length + 1) 0 rows

/-- The loop over the header: what is pending when it is there, less the header, and the chunks to
come. -/
def readHeader (broken : Option String) : List Bytes → Bytes → Except ApiError (Bytes × List Bytes)
  | chunks, pending =>
    match lib.parseHeader pending with
    | .error e => .error (badRequest e)
    | .ok (some n) => .ok (pending.drop n, chunks)
    | .ok none =>
      match chunks with
      | bytes :: chunks => readHeader broken chunks (pending ++ bytes)
      | [] =>
        match broken with
        | some e => .error (badRequest s!"body read failed: {e}")
        | none => .error (badRequest s!"import body ends before its {lib.bodyHeader}-byte header")

/-- What is left when the body has ended. -/
def finishImport (pending : Bytes) (imported : Nat) : Except ImportFault Nat :=
  if pending.isEmpty then .ok imported
  else .error (.refused (badRequest s!"truncated record: {pending.length} trailing bytes"))

/-- The loop over the records. -/
def importLoop (broken : Option String) :
    List Bytes → Bytes → List FrameRow → Nat → CopyTarget → Except ImportFault Nat × CopyTarget
  | chunks, pending, rows, imported, db =>
    match importRows lib can protocol pending rows with
    | .error e => (.error e, db)
    | .ok (read, rows) =>
      let pending := pending.drop read
      match chunks with
      | bytes :: chunks =>
        if importChunkRows ≤ rows.length then
          match db.copyRows rows with
          | (some e, db) => (.error (.refused e.answer), db)
          | (none, db) =>
            importLoop broken chunks (pending ++ bytes) [] (imported + rows.length) db
        else importLoop broken chunks (pending ++ bytes) rows imported db
      | [] =>
        match broken with
        | some e => (.error (.refused (badRequest s!"body read failed: {e}")), db)
        | none =>
          if rows.isEmpty then (finishImport pending imported, db)
          else
            match db.copyRows rows with
            | (some e, db) => (.error (.refused e.answer), db)
            | (none, db) => (finishImport pending (imported + rows.length), db)

/-- `import_capture`, of a caller who may: how many rows it says it imported.  `ready` is what
`ensure_database` and `pool` come to. -/
def importCapture (ready : Except ApiError Unit) (upload : Upload) (db : CopyTarget) :
    Except ImportFault Nat × CopyTarget :=
  match readHeader lib upload.broken upload.chunks [] with
  | .error e => (.error (.refused e), db)
  | .ok (pending, chunks) =>
    match ready with
    | .error e => (.error (.refused e), db)
    | .ok () => importLoop lib can protocol upload.broken chunks pending [] 0 db

end Import

end WireTap.Gateway
