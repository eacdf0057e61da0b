import Mathlib
import WireTap.Daemon.Equiv.Pipelines
import WireTap.Forward.Equiv.Keeps

/-!
# Which pipelines can announce themselves

A `HELLO` has one byte for the number of its devices and for the length of each of its texts
(`Announceable`).  The names of the databases and of the daemon are checked when the settings are
resolved, and are far shorter.  The key and the interfaces are not, and the devices are stopped at
the last bus, which is one too late for a database that has them all: `announced_iff`.

A `HELLO` that is refused is refused again at each attempt (`never_connects`).
-/

set_option mvcgen.warning false

namespace WireTap.Daemon

open Std.Do

/-! ### What `encode_hello` takes -/

/-- Everything a `HELLO` counts fits the byte it is counted in. -/
structure Announceable (h : Hello) : Prop where
  token : h.token.utf8ByteSize ≤ 255
  database : h.database.utf8ByteSize ≤ 255
  daemonId : h.daemonId.utf8ByteSize ≤ 255
  count : h.devices.length ≤ 255
  names : ∀ d ∈ h.devices, d.name.utf8ByteSize ≤ 255

/-! ### A `HELLO` that is refused -/

section Refused

variable {α : Type}

/-- The sink would say `h` once more, and has no connection. -/
def Saying (h : Hello) (s : ForwardSink α) : Prop := hello s = h ∧ s.conn = none

theorem dial_saying (h : Hello) :
    ⦃fun s : ForwardSink α => ⌜Saying h s⌝⦄ dial ⦃⇓ _ s' => ⌜Saying h s'⌝⦄ := by
  mvcgen [dial, note]

variable [Protocol α]

/-- The connection is given up before anything is sent on it. -/
theorem handshake_refused {h : Hello} {why : String}
    (hrefused : Protocol.encodeHello α h = .error why) :
    ⦃fun s : ForwardSink α => ⌜Saying h s⌝⦄ handshake
    ⦃⇓ r s' => ⌜r.isOk = false ∧ Saying h s'⌝⦄ := by
  have hdial := dial_saying (α := α) h
  mvcgen [handshake, hdial]
  rename_i hs _ haccepted
  have haccepted : Protocol.encodeHello α h = .ok () := hs.1 ▸ haccepted
  rw [hrefused] at haccepted
  cases haccepted

variable [CatalogueFormat]

theorem connect_refused {h : Hello} {why : String}
    (hrefused : Protocol.encodeHello α h = .error why) :
    ⦃fun s : ForwardSink α => ⌜Saying h s⌝⦄ connect ⦃⇓ _ s' => ⌜Saying h s'⌝⦄ := by
  have hshake := handshake_refused hrefused
  mvcgen [connect, agree, hshake] <;> simp_all [Except.isOk, Except.toBool]

/-- Whatever the gateway does, a sink whose `HELLO` is refused is not connected after any number of
attempts. -/
theorem never_connects {s : ForwardSink α} {why : String} (hconn : s.conn = none)
    (hrefused : Protocol.encodeHello α (hello s) = .error why) (n : Nat) :
    ((fun s => (connect.run s).2)^[n] s).conn = none := by
  have hsaying : Saying (hello s) ((fun s => (connect.run s).2)^[n] s) := by
    induction n with
    | zero => exact ⟨rfl, hconn⟩
    | succ n ih =>
      rw [Function.iterate_succ_apply']
      exact kept_of_triple (connect_refused hrefused) ih
  exact hsaying.2

end Refused

/-! ### Devices and their number -/

theorem captures_of_parseCapture {lib : SettingsLib} {capture : Option String} {framed raw : Bool}
    (h : Device.parseCapture lib capture = .ok (framed, raw)) : framed = true ∨ raw = true := by
  unfold Device.parseCapture at h
  split at h
  · simp_all
  · split_ifs at h <;> simp_all

/-- A table's device captures something. -/
theorem lands_of_serialKind {lib : SettingsLib} {t : DeviceSection} {database : String}
    {mode : Option Mode} {kind : DeviceKind} {mode' : Mode}
    (h : Device.serialKind lib t database mode = .ok (kind, mode')) :
    ∃ settings, kind = .serial settings ∧
      (settings.framing.isSome = true ∨ settings.rawDatabase.isSome = true) := by
  unfold Device.serialKind at h
  obtain ⟨-, -, h⟩ := bind_ok h
  obtain ⟨-, -, h⟩ := bind_ok h
  obtain ⟨baud, -, h⟩ := bind_ok h
  obtain ⟨-, -, h⟩ := bind_ok h
  obtain ⟨parity, -, h⟩ := bind_ok h
  obtain ⟨-, -, h⟩ := bind_ok h
  obtain ⟨⟨framed, raw⟩, hcapture, h⟩ := bind_ok h
  obtain ⟨-, -, h⟩ := bind_ok h
  obtain ⟨-, -, h⟩ := bind_ok h
  obtain ⟨framing, hframing, h⟩ := bind_ok h
  obtain ⟨catalogue, -, h⟩ := bind_ok h
  obtain ⟨rfl, rfl⟩ := Prod.mk.inj (Except.ok.inj h)
  refine ⟨_, rfl, ?_⟩
  rcases captures_of_parseCapture hcapture with rfl | rfl
  · left
    obtain ⟨name, -, hname⟩ := bind_ok hframing
    split_ifs at hname
    rw [← Except.ok.inj hname]
    rfl
  · right
    rfl

theorem lands_of_fromTable {lib : SettingsLib} {t : DeviceSection} {canFd : Bool}
    {database : String} {d : Device} (h : Device.fromTable lib t canFd database = .ok d) :
    d.databases ≠ [] := by
  obtain ⟨interface, -, h⟩ := bind_ok h
  obtain ⟨mode, -, h⟩ := bind_ok h
  obtain ⟨name, -, h⟩ := bind_ok h
  obtain ⟨⟨kind, mode'⟩, hkind, h⟩ := bind_ok h
  obtain rfl := Except.ok.inj h
  unfold Device.tableKind at hkind
  split_ifs at hkind
  · have hcan : ∃ fd, kind = .can fd := by
      iterate 8 obtain ⟨-, -, hkind⟩ := bind_ok hkind
      exact ⟨_, (Prod.mk.inj (Except.ok.inj hkind)).1.symm⟩
    obtain ⟨fd, rfl⟩ := hcan
    exact List.cons_ne_nil _ _
  · obtain ⟨settings, rfl, hstreams⟩ := lands_of_serialKind hkind
    unfold Device.databases
    intro hnone
    simp_all

/-- Each device has a stream in some database. -/
theorem lands_of_resolve {lib : SettingsLib} {cli : Cli} {file : Option FileConfig}
    {ui : Option UiConfig} {env : Env} {r : Resolved}
    (h : Settings.resolve lib cli file ui env = .ok r) :
    ∀ d ∈ r.settings.devices, d.databases ≠ [] := by
  have hlayers := Settings.ofLayers_of_layers (Settings.layers_of_resolveLayered h)
  obtain ⟨set, -, hbuilt⟩ := hlayers.devices
  refine Settings.forall_buildDevices (P := fun d => d.databases ≠ []) (fun _ _ hd => hd) ?_ ?_ hbuilt
  · intro name _ fd database
    exact List.cons_ne_nil _ _
  · intro t _ canFd database d hd
    exact lands_of_fromTable hd

/-- As many devices as there are buses. -/
theorem length_devices_le {lib : SettingsLib} {cli : Cli} {file : Option FileConfig}
    {ui : Option UiConfig} {env : Env} {r : Resolved}
    (h : Settings.resolve lib cli file ui env = .ok r) : r.settings.devices.length ≤ 256 := by
  have hnodup := (Settings.resolve_numbered h).nodup
  have hcard := List.Nodup.length_le_card (hnodup.map UInt8.toFin_injective)
  simpa using hcard

/-- A database has too many devices where it has one on every bus. -/
theorem length_devicesIn_le_iff {s : Settings} (hmost : s.devices.length ≤ 256) (db : String) :
    (s.devicesIn db).length ≤ 255 ↔
      ¬ (s.devices.length = 256 ∧ ∀ d ∈ s.devices, db ∈ d.databases) := by
  have hlength : (s.devicesIn db).length = (s.devices.filter (·.databases.contains db)).length :=
    List.length_map _
  have hle := List.length_filter_le (fun d : Device => d.databases.contains db) s.devices
  have hall : (s.devices.filter (·.databases.contains db)).length = s.devices.length ↔
      ∀ d ∈ s.devices, db ∈ d.databases := by
    simp [List.length_filter_eq_length_iff]
  rw [hlength, ← hall]
  omega

/-! ### Every entry -/

/-- What an entry announces. -/
theorem hello_newSink {α : Type} (g : Forwarding) (outside : Outside α) :
    hello (newSink g outside) =
      { version := 3
        token := g.apiKey
        database := g.database
        daemonId := g.daemonId
        devices := g.devices } := rfl

/-- A character is at most four bytes. -/
theorem utf8ByteSize_le (text : String) : text.utf8ByteSize ≤ 4 * text.length := by
  induction text using String.push_induction with
  | empty => decide
  | push text c ih =>
    have hc := c.utf8Size_le_four
    rw [String.utf8ByteSize_push, String.length_push]
    omega

/-- The names the gateway is given were checked. -/
theorem short_of_resolve {lib : SettingsLib} {cli : Cli} {file : Option FileConfig}
    {ui : Option UiConfig} {env : Env} {r : Resolved}
    (h : Settings.resolve lib cli file ui env = .ok r) {f : Forward}
    (hf : r.settings.forward = some f)
    (hdatabases : ∀ name, lib.validDatabaseName name = true → name.length ≤ 63)
    (hids : ∀ id, lib.validDaemonId id = true → id.length ≤ 63) :
    f.daemonId.utf8ByteSize ≤ 255 ∧ ∀ db ∈ r.settings.databases, db.utf8ByteSize ≤ 255 := by
  have hbytes (text : String) (hlength : text.length ≤ 63) : text.utf8ByteSize ≤ 255 := by
    have hle := utf8ByteSize_le text
    omega
  constructor
  · have hchecked :=
      (Settings.ofLayers_of_layers (Settings.layers_of_resolveLayered h)).checked
    rw [hf] at hchecked
    unfold Settings.checkForward at hchecked
    dsimp only at hchecked
    split_ifs at hchecked with _ hid
    exact hbytes _ (hids _ (by simpa using hid))
  · intro db hdb
    rcases Bool.or_eq_true_iff.mp (Settings.valid_of_mem_databases h hf hdb) with hempty | hname
    · rw [String.isEmpty_iff.mp hempty]
      decide
    · exact hbytes db (hdatabases db hname)

/-- An entry's `HELLO` fits where its key, its devices' interfaces and their number do. -/
theorem announceable_iff {α : Type} {lib : SettingsLib} {s : Settings} {f : Forward} {db : String}
    (hid : f.daemonId.utf8ByteSize ≤ 255) (hdb : db.utf8ByteSize ≤ 255) (outside : Outside α) :
    Announceable (hello (newSink (Settings.forwardingOf lib s f db) outside)) ↔
      f.apiKey.utf8ByteSize ≤ 255 ∧ (s.devicesIn db).length ≤ 255 ∧
        ∀ d ∈ s.devices, db ∈ d.databases → d.interface.utf8ByteSize ≤ 255 := by
  have hkey : (Settings.forwardingOf lib s f db).apiKey = f.apiKey := by
    show (Settings.forDatabase lib f db).apiKey = f.apiKey
    unfold Settings.forDatabase
    split_ifs <;> rfl
  have hdaemon : (Settings.forwardingOf lib s f db).daemonId = f.daemonId := by
    show (Settings.forDatabase lib f db).daemonId = f.daemonId
    unfold Settings.forDatabase
    split_ifs <;> rfl
  have hdatabase : (Settings.forwardingOf lib s f db).database = db :=
    Settings.database_forDatabase lib f db
  have hdevices : (Settings.forwardingOf lib s f db).devices = s.devicesIn db := rfl
  have hnames : (∀ d ∈ s.devicesIn db, d.name.utf8ByteSize ≤ 255) ↔
      ∀ d ∈ s.devices, db ∈ d.databases → d.interface.utf8ByteSize ≤ 255 := by
    unfold Settings.devicesIn
    rw [List.forall_mem_map]
    simp
  rw [hello_newSink, hkey, hdaemon, hdatabase, hdevices, ← hnames]
  constructor
  · intro h
    exact ⟨h.token, h.count, h.names⟩
  · rintro ⟨hkey, hcount, hnames⟩
    exact ⟨hkey, hdb, hid, hcount, hnames⟩

/-- There is a pipeline. -/
theorem databases_ne_nil {lib : SettingsLib} {s : Settings} (hcheck : check lib s = .ok ())
    (hlands : ∀ d ∈ s.devices, d.databases ≠ []) : ∃ db, db ∈ s.databases := by
  simp only [Settings.mem_databases]
  unfold check at hcheck
  split_ifs at hcheck with hnothing
  cases hdevices : s.devices with
  | nil =>
    have hingest : s.ingest.isSome = true := by
      rw [hdevices] at hnothing
      simpa [Option.isSome_iff_ne_none] using hnothing
    exact ⟨s.defaultDatabase, .inr ⟨hingest, rfl⟩⟩
  | cons d ds =>
    have hmem : d ∈ s.devices := by rw [hdevices]; exact List.mem_cons_self
    obtain ⟨db, hdb⟩ := List.exists_mem_of_ne_nil _ (hlands d hmem)
    exact ⟨db, .inl ⟨d, List.mem_cons_self, hdb⟩⟩

theorem announced_iff {α : Type} [Protocol α]
    (hencode : ∀ h, Protocol.encodeHello α h = .ok () ↔ Announceable h) {lib : SettingsLib}
    (hdatabases : ∀ name, lib.validDatabaseName name = true → name.length ≤ 63)
    (hids : ∀ id, lib.validDaemonId id = true → id.length ≤ 63) {cli : Cli}
    {file : Option FileConfig} {ui : Option UiConfig} {env : Env} {r : Resolved}
    (h : Settings.resolve lib cli file ui env = .ok r) (hcheck : check lib r.settings = .ok ())
    (outside : Forwarding → Outside α) :
    (∀ g ∈ r.settings.forwardings lib,
        Protocol.encodeHello α (hello (newSink g (outside g))) = .ok ()) ↔
      ∀ f, r.settings.forward = some f →
        f.apiKey.utf8ByteSize ≤ 255 ∧ (∀ d ∈ r.settings.devices, d.interface.utf8ByteSize ≤ 255) ∧
        ¬ (r.settings.devices.length = 256 ∧
          ∃ db, ∀ d ∈ r.settings.devices, db ∈ d.databases) := by
  cases hf : r.settings.forward with
  | none =>
    have hnone : r.settings.forwardings lib = [] := by
      unfold Settings.forwardings
      rw [hf]
    simp [hnone]
  | some f =>
    obtain ⟨hid, hshort⟩ := short_of_resolve h hf hdatabases hids
    have hlands := lands_of_resolve h
    have hmost := length_devices_le h
    simp only [hencode, Settings.forwardings_eq hf, List.forall_mem_map, Option.some.injEq,
      forall_eq']
    constructor
    · intro hall
      have heach : ∀ db ∈ r.settings.databases, _ := fun db hdb =>
        (announceable_iff hid (hshort db hdb) _).mp (hall db hdb)
      obtain ⟨db, hdb⟩ := databases_ne_nil hcheck hlands
      refine ⟨(heach db hdb).1, fun d hd => ?_, ?_⟩
      · -- A device is announced in the sessions of the databases it lands in.
        obtain ⟨db, hin⟩ := List.exists_mem_of_ne_nil _ (hlands d hd)
        exact (heach db (Settings.mem_databases.mpr (.inl ⟨d, hd, hin⟩))).2.2 d hd hin
      · rintro ⟨hmany, db, hin⟩
        have hsome : ∃ d, d ∈ r.settings.devices := by
          apply List.exists_mem_of_length_pos
          omega
        obtain ⟨d, hd⟩ := hsome
        have hcount := (heach db (Settings.mem_databases.mpr (.inl ⟨d, hd, hin d hd⟩))).2.1
        exact (length_devicesIn_le_iff hmost db).mp hcount ⟨hmany, hin⟩
    · rintro ⟨hkey, hinterfaces, hcount⟩ db hdb
      refine (announceable_iff hid (hshort db hdb) _).mpr ⟨hkey, ?_, fun d hd _ => hinterfaces d hd⟩
      rw [length_devicesIn_le_iff hmost]
      rintro ⟨hmany, hin⟩
      exact hcount ⟨hmany, db, hin⟩

/-! ### Two configurations -/

/-- As a conjunction. -/
theorem announceable_iff_fits (h : Hello) :
    (h.token.utf8ByteSize ≤ 255 ∧ h.database.utf8ByteSize ≤ 255 ∧ h.daemonId.utf8ByteSize ≤ 255 ∧
      h.devices.length ≤ 255 ∧ ∀ d ∈ h.devices, d.name.utf8ByteSize ≤ 255) ↔ Announceable h := by
  constructor
  · rintro ⟨token, database, daemonId, count, names⟩
    exact ⟨token, database, daemonId, count, names⟩
  · intro h
    exact ⟨h.token, h.database, h.daemonId, h.count, h.names⟩

instance (h : Hello) : Decidable (Announceable h) := decidable_of_iff _ (announceable_iff_fits h)

/-- A protocol that refuses what does not fit. -/
local instance counted : Protocol Nat where
  batchLen := List.length
  batchLen_pos _ h := List.length_pos_iff.mpr h
  batchLen_le _ := le_rfl
  encodeHello h := if Announceable h then .ok () else .error "a length past 255"
  encodeCatalogueStatus _ := .ok ()

theorem ok_of_any {ε β : Type} {x : Except ε β} {p : β → Bool} (h : x.toOption.any p = true) :
    ∃ b, x = .ok b ∧ p b = true := by
  cases x with
  | error e => cases h
  | ok b => exact ⟨b, rfl, h⟩

/-- A serial line at `path`. -/
def serialAt (path : String) : FileConfig :=
  { (default : FileConfig) with
    device :=
      [{ (default : DeviceSection) with
        kind := some "serial"
        interface := some path
        baud := some 9600
        framing := some "modbus-rtu" }] }

/-- A link to an adapter with a long name, 257 bytes. -/
def longPath : String := "/dev/serial/by-id/" ++ String.ofList (List.replicate 239 '0')

theorem long_interface_is_refused :
    ∃ r, Settings.resolve .onDisk (cachedCli "/var/lib/wiretap/cache.db")
        (some (serialAt longPath)) none benchEnv = .ok r ∧
      check .onDisk r.settings = .ok () ∧
      ¬ ∀ g ∈ r.settings.forwardings .onDisk,
        Protocol.encodeHello Nat (hello (newSink g noOutside)) = .ok () := by
  have hruns : (Settings.resolve .onDisk (cachedCli "/var/lib/wiretap/cache.db")
      (some (serialAt longPath)) none benchEnv).toOption.any (fun r =>
        decide (check .onDisk r.settings = .ok () ∧
          ¬ ∀ g ∈ r.settings.forwardings .onDisk,
            Protocol.encodeHello Nat (hello (newSink g noOutside)) = .ok ())) = true := by
    decide +kernel
  obtain ⟨r, hr, hrefused⟩ := ok_of_any hruns
  exact ⟨r, hr, of_decide_eq_true hrefused⟩

theorem announced_fleet :
    ∃ r, Settings.resolve .onDisk (cachedCli "/var/lib/wiretap/cache.db")
        (some (twoDatabases "fleet")) none benchEnv = .ok r ∧
      check .onDisk r.settings = .ok () ∧
      ∀ g ∈ r.settings.forwardings .onDisk,
        Protocol.encodeHello Nat (hello (newSink g noOutside)) = .ok () := by
  have hencode (h : Hello) : Protocol.encodeHello Nat h = .ok () ↔ Announceable h := by
    show (if Announceable h then Except.ok () else .error "a length past 255") = .ok () ↔ _
    split_ifs with hfits <;> simp [hfits]
  have hruns : (Settings.resolve .onDisk (cachedCli "/var/lib/wiretap/cache.db")
      (some (twoDatabases "fleet")) none benchEnv).toOption.any (fun r =>
        decide (check .onDisk r.settings = .ok () ∧
          (∀ f ∈ r.settings.forward.toList, f.apiKey.utf8ByteSize ≤ 255) ∧
          (∀ d ∈ r.settings.devices, d.interface.utf8ByteSize ≤ 255) ∧
          r.settings.devices.length ≠ 256)) = true := by
    decide +kernel
  obtain ⟨r, hr, hfits⟩ := ok_of_any hruns
  obtain ⟨hcheck, hkey, hinterfaces, hcount⟩ := of_decide_eq_true hfits
  have hlength {name : String} {p q : Bool} (h : (p && decide (name.length ≤ 63) && q) = true) :
      name.length ≤ 63 := by
    simp only [Bool.and_eq_true, decide_eq_true_eq] at h
    exact h.1.2
  refine ⟨r, hr, hcheck, (announced_iff hencode (fun _ => hlength) (fun _ => hlength) hr hcheck
    fun _ => noOutside).mpr fun f hf => ?_⟩
  exact ⟨hkey f (by simp [hf]), hinterfaces, fun hmany => hcount hmany.1⟩

end WireTap.Daemon
