import Mathlib.Data.Finmap
import Mathlib.Data.Finset.Sort
import Mathlib.Data.List.Basic
import Mathlib.Data.String.Basic

/-!
# Catalogues

`Catalogues`: which catalogue each framed serial line frames with, the assignments the gateway gave
and `assignments.json`, where they are remembered.

The file system is the `disk` of the state: `assignments.json`, the cached blobs and whether each
write still to come fails.  A catalogue keeps its path and its SHA-1, which names its content, so
the fields parsed out of it are left out; the parser and the hash are a `CatalogueFormat`.
-/

namespace WireTap

/-- A Git blob SHA-1. -/
structure Sha where
  bytes : List UInt8
  size : bytes.length = 20
  deriving DecidableEq

def hexDigit (n : UInt8) : Char := if n < 10 then Char.ofNat (48 + n.toNat) else
  Char.ofNat (87 + n.toNat)

/-- `blob_sha1_hex`: lowercase hex, as Git prints it. -/
def blobSha1Hex (sha : Sha) : String :=
  String.ofList (sha.bytes.flatMap fun b => [hexDigit (b / 16), hexDigit (b % 16)])

structure LineCatalogue where
  path : String
  sha : Sha
  deriving DecidableEq

/-- What a catalogue's bytes hash to, and what its text parses to: `blob_sha1` and
`LineCatalogue::parse`. -/
class CatalogueFormat where
  blobSha1 : List UInt8 → Sha
  parse (path text : String) : Except String LineCatalogue

/-- What a line frames with, and where that came from. -/
inductive Rules where
  | gateway (sha : String) (catalogue : LineCatalogue)
  | etc (catalogue : LineCatalogue)
  | none
  deriving DecidableEq

/-- What a `CATALOGUE_STATUS` says a device frames with. -/
inductive ActiveCatalogue where
  | none
  | assigned (sha : Sha)
  | local (sha : Sha)
  deriving DecidableEq

def Rules.active : Rules → ActiveCatalogue
  | .gateway _ catalogue => .assigned catalogue.sha
  | .etc catalogue => .local catalogue.sha
  | .none => .none

/-- Why an assigned blob was not framed with. -/
inductive Refusal where
  | fetchFailed
  | hashMismatch
  | didNotParse
  deriving DecidableEq

/-- A line's assignment, as one session's `HELLO_ACK` left it. -/
inductive Update where
  | assigned (sha : String) (catalogue : LineCatalogue)
  | cleared
  /-- The line keeps what it had. -/
  | refused (sha : Sha) (refusal : Refusal)
  deriving DecidableEq

structure Device where
  bus : UInt8
  name : String
  deriving DecidableEq

structure CatalogueStatusEntry where
  bus : UInt8
  active : ActiveCatalogue
  refused : Option (Sha × Refusal)
  deriving DecidableEq

abbrev CatalogueStatus := List CatalogueStatusEntry

structure Line where
  interface : String
  /-- Where its framed stream lands: the session forwarding there owns it. -/
  database : String
  etc : Option LineCatalogue
  rules : Rules
  deriving DecidableEq

/-- Interface to hex SHA-1. -/
abbrev Assignments := Finmap fun _ : String => String

/-- The state directory, and whether each write still to come fails. -/
structure StateDir where
  assignments : Option String := none
  blobs : Finmap fun _ : String => List UInt8 := ∅
  failures : List (Option String) := []

structure Catalogues where
  /-- `none` with nothing to forward to, so nothing is ever assigned. -/
  dir : Option String
  /-- In interface order, each interface once. -/
  lines : List Line
  distinct : (lines.map Line.interface).Nodup
  assigned : Assignments
  /-- Interface to the assigned blob it last turned down, until one is taken. -/
  refused : Finmap fun _ : String => Sha × Refusal
  /-- How often any line's rules or refusal have changed. -/
  changes : Nat
  disk : StateDir

/-- `fallback`: what a line frames with when nothing is assigned. -/
def fallback : Option LineCatalogue → Rules
  | some catalogue => .etc catalogue
  | none => .none

/-! ### `assignments.json` -/

def hexPad (n : Nat) : String :=
  String.ofList [hexDigit (UInt8.ofNat (n / 16)), hexDigit (UInt8.ofNat (n % 16))]

/-- A character of a JSON string, as `serde_json` writes it. -/
def escape (c : Char) : String :=
  if c = '"' then "\\\""
  else if c = '\\' then "\\\\"
  else if c = '\x08' then "\\b"
  else if c = '\t' then "\\t"
  else if c = '\n' then "\\n"
  else if c = '\x0c' then "\\f"
  else if c = '\r' then "\\r"
  else if c.toNat < 32 then "\\u00" ++ hexPad c.toNat
  else c.toString

def quote (s : String) : String := "\"" ++ String.join (s.toList.map escape) ++ "\""

/-- `serde_json::to_vec_pretty` of a map of strings: an entry a line, in key order. -/
def toVecPretty (m : Assignments) : String :=
  if m = ∅ then "\x7b\x7d"
  else
    let entry (key : String) : String :=
      "  " ++ quote key ++ ": " ++ quote ((m.lookup key).getD "")
    "\x7b\n" ++ String.intercalate ",\n" ((m.keys.sort (· ≤ ·)).map entry) ++ "\n\x7d"

namespace Catalogues

/-! ### Reading -/

/-- The line on `interface`. -/
def line (c : Catalogues) (interface : String) : Option Line :=
  c.lines.find? fun l => l.interface = interface

/-- `effective`: what `interface` frames with now. -/
def effective (c : Catalogues) (interface : String) : Option Rules :=
  (c.line interface).map Line.rules

/-- `owned_by`: the lines whose assignments a session forwarding to `database` keeps. -/
def ownedBy (c : Catalogues) (database : String) : List String :=
  (c.lines.filter fun l => l.database = database).map Line.interface

/-- `status`: every bus in `devices`, as a `CATALOGUE_STATUS` reports it. -/
def status (c : Catalogues) (devices : List Device) : CatalogueStatus :=
  devices.map fun d =>
    { bus := d.bus
      active := ((c.effective d.name).map Rules.active).getD .none
      refused := c.refused.lookup d.name }

def blobPath (c : Catalogues) (sha : String) : Option String :=
  c.dir.map fun dir => dir ++ "/catalogs/" ++ sha ++ ".toml"

section Format

variable [CatalogueFormat]

/-- `checked`: the blob is the one named, is text and parses. -/
def checked (sha : String) (blob : List UInt8) (path : String) :
    Except (Refusal × String) LineCatalogue :=
  let actual := blobSha1Hex (CatalogueFormat.blobSha1 blob)
  if actual ≠ sha then .error (.hashMismatch, "its content hashes to " ++ actual)
  else
    match String.fromUTF8? ⟨blob.toArray⟩ with
    | none => .error (.didNotParse, "not UTF-8")
    | some text =>
      match CatalogueFormat.parse path text with
      | .error why => .error (.didNotParse, why)
      | .ok catalogue => .ok catalogue

/-- `cached`: the cached blob `sha`, checked and parsed as it was stored. -/
def cached (c : Catalogues) (sha : String) : Except String LineCatalogue :=
  match c.blobPath sha with
  | none => .error "no state directory"
  | some path =>
    match c.disk.blobs.lookup sha with
    | none => .error (path ++ ": No such file or directory")
    | some blob =>
      match checked sha blob path with
      | .error (_, why) => .error why
      | .ok catalogue => .ok catalogue

/-- `remembered_rules`: what a line frames with at start. -/
def rememberedRules (c : Catalogues) (interface : String) (etc : Option LineCatalogue) : Rules :=
  match c.assigned.lookup interface with
  | none => fallback etc
  | some sha =>
    match c.cached sha with
    | .ok catalogue => .gateway sha catalogue
    | .error _ => fallback etc

/-- `store`: check `blob` against `sha`, parse it, and cache it.  One that cannot be cached is
refused as not fetched. -/
def store (c : Catalogues) (sha : String) (blob : List UInt8) :
    Except (Refusal × String) LineCatalogue × Catalogues :=
  match c.blobPath sha with
  | none => (.error (.fetchFailed, "no state directory"), c)
  | some path =>
    match checked sha blob path with
    | .error refused => (.error refused, c)
    | .ok catalogue =>
      let c' := { c with disk.failures := c.disk.failures.tail }
      match c.disk.failures.headD none with
      | some why => (.error (.fetchFailed, why), c')
      | none => (.ok catalogue, { c' with disk.blobs := c.disk.blobs.insert sha blob })

end Format

/-! ### `apply` -/

/-- `send_if_modified` on the line's watch channel. -/
def setRules (lines : List Line) (interface : String) (rules : Rules) : List Line :=
  lines.map fun l => if l.interface = interface then { l with rules } else l

theorem setRules_interfaces (lines : List Line) (interface : String) (rules : Rules) :
    (setRules lines interface rules).map Line.interface = lines.map Line.interface := by
  unfold setRules
  rw [List.map_map]
  apply List.map_congr_left
  intro l _
  dsimp only [Function.comp_apply]
  split <;> rfl

/-- A line takes an assignment or loses it: any refusal is forgotten. -/
def take (c : Catalogues) (interface : String) (assigned : Assignments) (rules : Rules) :
    Catalogues where
  dir := c.dir
  lines := setRules c.lines interface rules
  distinct := by
    rw [setRules_interfaces]
    exact c.distinct
  assigned
  refused := c.refused.erase interface
  changes := c.changes
  disk := c.disk

/-- One update, and whether anything the gateway is told of changed. -/
def applyOne (c : Catalogues) (interface : String) (update : Update) : Catalogues × Bool :=
  match c.line interface with
  | none => (c, false)
  | some line =>
    match update with
    | .assigned sha catalogue =>
      let rules := Rules.gateway sha catalogue
      (c.take interface (c.assigned.insert interface sha) rules,
        (c.refused.lookup interface).isSome || line.rules != rules)
    | .cleared =>
      let rules := fallback line.etc
      (c.take interface (c.assigned.erase interface) rules,
        (c.refused.lookup interface).isSome || line.rules != rules)
    | .refused sha refusal =>
      -- The line goes on framing with what it has, and stays assigned what it was.
      ({ c with refused := c.refused.insert interface (sha, refusal) },
        c.refused.lookup interface != some (sha, refusal))

/-- Every update in turn. -/
def applyAll (c : Catalogues) : List (String × Update) → Catalogues × Bool
  | [] => (c, false)
  | (interface, update) :: rest =>
    let (c, changed) := c.applyOne interface update
    let (c, changed') := c.applyAll rest
    (c, changed || changed')

/-- The end of `apply`: write the assignments, if there is anywhere to. -/
def remember (c : Catalogues) : Catalogues :=
  match c.dir with
  | none => c
  | some _ =>
    let c' := { c with disk.failures := c.disk.failures.tail }
    match c.disk.failures.headD none with
    | some _ => c'
    | none => { c' with disk.assignments := some (toVecPretty c.assigned) }

/-- `apply`: take one session's assignments, remember them, and hand any change on. -/
def apply (c : Catalogues) (updates : List (String × Update)) : Catalogues :=
  let (c', changed) := c.applyAll updates
  let c' := { c' with changes := if changed then c.changes + 1 else c.changes }
  if c'.assigned = c.assigned then c' else c'.remember

end Catalogues

end WireTap
