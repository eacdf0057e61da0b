import Mathlib.Data.List.Dedup
import Mathlib.Data.List.DropRight
import WireTap.Daemon.Listing

/-!
# The settings form

The form a UI has for the daemon's settings (`change.ts`).  It is filled from the values of the
listing (`draftOf`, `devicesOf`), and sends what differs from them (`changes`): each field for
itself, the devices as a whole list.  A device in the form has an interface, an `fd` and a database,
and nothing to say that one was left out.

What goes between the two is a `JsonValue`.  `serde` is how `serde_json` writes and reads the types
of `ui.toml`; what a `Secret` serialises to is a parameter, as in `JsonLib`.  So is how JavaScript
shows a number and reads one (`JsLib`).

A key is by what it names (`UiKey.name`), and a text is of Unicode's characters, so without lone
surrogates.  `JSON.stringify` tells two device lists apart exactly if they differ.

Left out: the titles, blurbs and hints, and the parts of a setting the form only shows.
-/

namespace WireTap.Daemon

/-! ### Values -/

inductive JsonValue where
  | null
  | bool (b : Bool)
  | number (v : Rat)
  | string (text : String)
  | array (items : List JsonValue)
  | object (fields : List (String × JsonValue))

namespace JsonValue

variable {α : Type}

def ofBool : Codec JsonValue Bool where
  toValue := .bool
  fromValue
    | .bool b => .ok b
    | _ => .error "invalid type"

def ofString : Codec JsonValue String where
  toValue := .string
  fromValue
    | .string text => .ok text
    | _ => .error "invalid type"

/-- An integer type of `2 ^ bits` numbers. -/
def unsigned (toNat : α → Nat) (ofNat : Nat → α) (bits : Nat) : Codec JsonValue α where
  toValue := fun n => .number (toNat n)
  fromValue
    | .number v =>
      if v.den = 1 ∧ 0 ≤ v.num ∧ v.num < 2 ^ bits then .ok (ofNat v.num.toNat)
      else .error "invalid value"
    | _ => .error "invalid type"

/-- An `f64` that is no number is `null`. -/
def ofF64 : Codec JsonValue F64 where
  toValue
    | .finite v => .number v
    | _ => .null
  fromValue
    | .number v => .ok (.finite v)
    | _ => .error "invalid type"

def ofOption (c : Codec JsonValue α) : Codec JsonValue (Option α) where
  toValue := fun v => v.elim .null c.toValue
  fromValue
    | .null => .ok none
    | v => (c.fromValue v).map some

def ofList (c : Codec JsonValue α) : Codec JsonValue (List α) where
  toValue := fun xs => .array (xs.map c.toValue)
  fromValue
    | .array items => items.mapM c.fromValue
    | _ => .error "invalid type"

/-- A field under `#[serde(default)]`. -/
def readField (fields : List (String × JsonValue)) (name : String) (c : Codec JsonValue α)
    (missing : α) : Except String α :=
  (fields.lookup name).elim (.ok missing) c.fromValue

def deviceFields : List String := ["interface", "fd", "database"]

def readDevice (fields : List (String × JsonValue)) : Except String UiDevice := do
  -- `deny_unknown_fields`
  if fields.any (!deviceFields.contains ·.1) then .error "unknown field"
  else
    let interface ← readField fields "interface" ofString ""
    let fd ← readField fields "fd" (ofOption ofBool) none
    let database ← readField fields "database" (ofOption ofString) none
    pure { interface, fd, database }

/-- A structure is read from an object, or from an array of its fields in their order. -/
def ofDevice : Codec JsonValue UiDevice where
  toValue := fun d => .object [("interface", ofString.toValue d.interface),
    ("fd", (ofOption ofBool).toValue d.fd), ("database", (ofOption ofString).toValue d.database)]
  fromValue
    | .object fields => readDevice fields
    | .array items =>
      if items.length ≤ deviceFields.length then readDevice (deviceFields.zip items)
      else .error "invalid length"
    | _ => .error "invalid type"

/-- `serde_json` over these values. -/
def serde (fromSlice : List UInt8 → Except String (List (String × JsonValue)))
    (secret : Codec JsonValue String) : JsonLib JsonValue where
  null := .null
  isNull
    | .null => true
    | _ => false
  fromSlice
  bool := ofBool
  string := ofString
  secret
  u8 := unsigned UInt8.toNat UInt8.ofNat 8
  u16 := unsigned UInt16.toNat UInt16.ofNat 16
  u64 := unsigned UInt64.toNat UInt64.ofNat 64
  f64 := ofF64
  devices := ofList ofDevice

/-- A property of an object. -/
def property (name : String) : JsonValue → Option JsonValue
  | object fields => fields.lookup name
  | _ => none

end JsonValue

/-! ### What the form is given -/

/-- The `json!` of a listed device. -/
def ListedDevice.toJson (d : ListedDevice) : JsonValue :=
  .object [("interface", .string d.interface), ("kind", .string d.kind), ("mode", .string d.mode),
    ("fd", .bool d.fd), ("database", .string d.database), ("bus", .number d.bus.toNat)]

def shownDevices (ds : List ListedDevice) : JsonValue := .array (ds.map ListedDevice.toJson)

/-- A setting as the form reads it. -/
structure FormSetting where
  key : UiKey
  pinned : Bool
  /-- Absent for a secret. -/
  value : Option JsonValue

/-- `Setting::to_json`. -/
def Setting.toJson (s : Setting JsonValue) : FormSetting where
  key := s.key
  pinned := s.source.pinned
  value := if s.secret then none else some s.value

/-- The listing, as the form is given it. -/
def formSettings (fromSlice : List UInt8 → Except String (List (String × JsonValue)))
    (secret : Codec JsonValue String) (cli : Cli) (file : Option FileConfig) (ui : UiConfig)
    (env : Env) (settings : Settings) : List FormSetting :=
  (listing (JsonValue.serde fromSlice secret) shownDevices cli file ui env settings).map
    Setting.toJson

/-! ### JavaScript's texts -/

/-- What JavaScript does with numbers. -/
structure JsLib where
  /-- `String(number)`. -/
  numberText : Rat → String
  /-- `Number(text)`. -/
  toNumber : String → F64

namespace Js

/-- `WhiteSpace` and `LineTerminator`. -/
def isBlank (c : Char) : Bool :=
  let n := c.toNat
  (9 ≤ n && n ≤ 13) || n = 32 || n = 0xA0 || n = 0x1680 || (0x2000 ≤ n && n ≤ 0x200A) ||
    n = 0x2028 || n = 0x2029 || n = 0x202F || n = 0x205F || n = 0x3000 || n = 0xFEFF

/-- `trim`. -/
def trim (text : String) : String :=
  String.ofList ((text.toList.dropWhile isBlank).rdropWhile isBlank)

def boolText (b : Bool) : String := if b then "true" else "false"

mutual

/-- `String(value)`. -/
def text (js : JsLib) : JsonValue → String
  | .null => "null"
  | .bool b => boolText b
  | .number v => js.numberText v
  | .string s => s
  | .array items => ",".intercalate (itemTexts js items)
  | .object _ => "[object Object]"

/-- An array's items, as it joins them. -/
def itemTexts (js : JsLib) : List JsonValue → List String
  | [] => []
  | .null :: items => "" :: itemTexts js items
  | item :: items => text js item :: itemTexts js items

end

/-- `String(value ?? "")`. -/
def shown (js : JsLib) : Option JsonValue → String
  | none | some .null => ""
  | some v => text js v

/-- `value === true`. -/
def isTrue : Option JsonValue → Bool
  | some (.bool b) => b
  | _ => false

/-- A value whose type is `string | null`, `?? ""`. -/
def asString : Option JsonValue → String
  | some (.string s) => s
  | _ => ""

end Js

/-! ### The form -/

namespace Form

inductive Kind where
  | flag
  | text
  | whole
  | number
  | level
  | secret
  deriving DecidableEq

structure Field where
  key : UiKey
  label : String
  kind : Kind

/-- The fields of `GROUPS`. -/
def fields : List Field :=
  [⟨.forwardEnable, "Forward to a gateway", .flag⟩,
    ⟨.forwardHost, "Gateway host", .text⟩,
    ⟨.forwardPort, "Gateway port", .whole⟩,
    ⟨.forwardDatabase, "Database", .text⟩,
    ⟨.apiKey, "Gateway key", .secret⟩,
    ⟨.batchSize, "Batch size, frames", .whole⟩,
    ⟨.flushInterval, "Flush interval, seconds", .number⟩,
    ⟨.queueSize, "Queue size, frames", .whole⟩,
    ⟨.cacheMaxMb, "Disk cache limit, MB", .whole⟩,
    ⟨.queueFlushPct, "Queue flush threshold, %", .whole⟩,
    ⟨.ingestEnable, "Accept device push", .flag⟩,
    ⟨.ingestPort, "Device push port", .whole⟩,
    ⟨.token, "Device push token", .secret⟩,
    ⟨.logLevel, "Log level", .level⟩]

/-- What a field holds: `string | boolean`. -/
inductive Typed where
  | text (text : String)
  | flag (on : Bool)
  deriving DecidableEq

namespace Typed

def toJson : Typed → JsonValue
  | text s => .string s
  | flag on => .bool on

/-- `String(typed)`. -/
def shown : Typed → String
  | text s => s
  | flag on => Js.boolText on

end Typed

abbrev Draft := UiKey → Typed

structure DeviceDraft where
  interface : String
  fd : Bool
  database : String
  deriving DecidableEq

section

variable (js : JsLib) (settings : List FormSetting)

def setting (key : UiKey) : Option FormSetting := settings.find? (·.key = key)

/-- What a field is filled with. -/
def filled (field : Field) : Typed :=
  let value := (setting settings field.key).bind (·.value)
  match field.kind with
  | .flag => .flag (Js.isTrue value)
  | .secret => .text ""
  | _ => .text (Js.shown js value)

def draftOf : Draft :=
  fields.foldl (fun draft field => Function.update draft field.key (filled js settings field))
    fun _ => .text ""

/-- A listed device in the form. -/
def DeviceDraft.ofJson (d : JsonValue) : DeviceDraft where
  interface := Js.asString (d.property "interface")
  fd := Js.isTrue (d.property "fd")
  database := Js.asString (d.property "database")

def devicesOf : List DeviceDraft :=
  match (setting settings .devices).bind (·.value) with
  | some (.array items) => items.map DeviceDraft.ofJson
  | _ => []

/-- What a field that is not pinned sends, if anything; or why it is refused. -/
def sent (draft : Draft) (removing : List UiKey) (field : Field) (now : FormSetting) :
    Except String (Option JsonValue) :=
  let typed := draft field.key
  let text := Js.trim typed.shown
  let same : Bool := text = Js.shown js now.value
  let whole := if field.kind = .whole then "whole " else ""
  let refused := s!"{field.label} must be a {whole}number."
  match field.kind with
  | .flag => .ok (if typed = .flag (Js.isTrue now.value) then none else some typed.toJson)
  | .secret => .ok
    (if field.key ∈ removing then some .null else if text = "" then none else some (.string text))
  | .text | .level => .ok
    (if same then none else if text = "" then some .null else some (.string text))
  | .whole | .number =>
    if same then .ok none
    else if text = "" then .ok (some .null)
    else match js.toNumber text with
      | .finite v =>
        if field.kind = .whole ∧ v.den ≠ 1 then .error refused else .ok (some (.number v))
      | _ => .error refused

/-- A turn of the loop over the fields. -/
def fieldChange (draft : Draft) (removing : List UiKey) (field : Field) :
    Except String (Option JsonValue) :=
  match setting settings field.key with
  | none => .ok none
  | some now => if now.pinned then .ok none else sent js draft removing field now

/-- What these fields send. -/
def fieldChanges (draft : Draft) (removing : List UiKey) :
    List Field → Except String (List (UiKey × JsonValue))
  | [] => .ok []
  | field :: rest => do
    let change ← fieldChange js settings draft removing field
    let body ← fieldChanges draft removing rest
    pure (change.elim body fun v => (field.key, v) :: body)

namespace DeviceDraft

def trimmed (d : DeviceDraft) : DeviceDraft where
  interface := Js.trim d.interface
  fd := d.fd
  database := Js.trim d.database

/-- `{ ...d, database: d.database || null }`. -/
def toJson (d : DeviceDraft) : JsonValue :=
  .object [("interface", .string d.interface), ("fd", .bool d.fd),
    ("database", if d.database = "" then .null else .string d.database)]

end DeviceDraft

/-- What devices that are not pinned send. -/
def devicesSent (devices : List DeviceDraft) : Except String (List (UiKey × JsonValue)) :=
  let next := devices.map DeviceDraft.trimmed
  let names := next.map (·.interface)
  if next = devicesOf settings then .ok []
  else if "" ∈ names then .error "Each device needs an interface name."
  else if names.dedup.length < names.length then .error "An interface is listed twice."
  else .ok [(.devices, .array (next.map DeviceDraft.toJson))]

def devicesChange (devices : List DeviceDraft) : Except String (List (UiKey × JsonValue)) :=
  match setting settings .devices with
  | none => .ok []
  | some now => if now.pinned then .ok [] else devicesSent settings devices

/-- `changes`: the body that is sent, or why none is. -/
def changes (draft : Draft) (removing : List UiKey) (devices : List DeviceDraft) :
    Except String (List (UiKey × JsonValue)) := do
  let body ← fieldChanges js settings draft removing fields
  let listed ← devicesChange settings devices
  pure (body ++ listed)

end

end Form

end WireTap.Daemon
