import Mathlib.Data.List.Nodup
import Mathlib.Tactic.SplitIfs
import WireTap.Daemon.Equiv.Databases
import WireTap.Daemon.Equiv.CacheFiles
import WireTap.Daemon.Pipelines

/-!
# Every stream has its pipeline

`streams_have_pipelines`: the databases are those a stream lands in, once each, and the default where
the ingest listener feeds it; there is one pipeline for each; and the handle a stream's samples are
given to is the one of its database, whose `HELLO` names the device with its bus, and which carries
raw serial if the stream is raw.
-/

namespace WireTap.Daemon

/-! ### Streams -/

theorem databases_eq_streams (d : Device) : d.databases = d.streams.map (·.2) := by
  unfold Device.databases Device.streams
  cases d.kind with
  | can fd => rfl
  | serial s =>
    dsimp only
    cases s.framing <;> cases s.rawDatabase <;> rfl

theorem mem_databases_iff_stream {d : Device} {db : String} :
    db ∈ d.databases ↔ ∃ stream, (stream, db) ∈ d.streams := by
  rw [databases_eq_streams, List.mem_map]
  constructor
  · rintro ⟨⟨stream, db'⟩, hmem, rfl⟩
    exact ⟨stream, hmem⟩
  · rintro ⟨stream, hmem⟩
    exact ⟨_, hmem, rfl⟩

namespace Settings

theorem mem_devicesIn {s : Settings} {d : Device} {db : String} (hd : d ∈ s.devices)
    (hdb : db ∈ d.databases) : (⟨d.bus, d.interface⟩ : WireTap.Device) ∈ s.devicesIn db := by
  refine List.mem_map.mpr ⟨d, List.mem_filter.mpr ⟨hd, ?_⟩, rfl⟩
  exact List.contains_iff_mem.mpr hdb

theorem carriesRawSerial_of_stream {s : Settings} {d : Device} {db : String} (hd : d ∈ s.devices)
    (hraw : (.raw, db) ∈ d.streams) : s.carriesRawSerial db = true := by
  refine List.any_eq_true.mpr ⟨d, hd, ?_⟩
  unfold Device.streams at hraw
  cases hkind : d.kind with
  | can fd =>
    rw [hkind] at hraw
    simp at hraw
  | serial t =>
    rw [hkind] at hraw
    simpa using hraw

/-! ### One pipeline a database -/

/-- What `forwards` has for a database. -/
def forwardingOf (lib : SettingsLib) (s : Settings) (f : Forward) (database : String) :
    Forwarding :=
  { forDatabase lib f database with
    devices := s.devicesIn database
    rawSerial := s.carriesRawSerial database }

theorem forwardings_eq {lib : SettingsLib} {s : Settings} {f : Forward} (hf : s.forward = some f) :
    s.forwardings lib = s.databases.map (forwardingOf lib s f) := by
  unfold forwardings
  rw [hf]
  rfl

theorem database_forDatabase (lib : SettingsLib) (f : Forward) (database : String) :
    (forDatabase lib f database).database = database := by
  unfold forDatabase
  split_ifs with hdefault
  · exact hdefault.symm
  · rfl

theorem database_forwardings {lib : SettingsLib} {s : Settings} {f : Forward}
    (hf : s.forward = some f) : (s.forwardings lib).map (·.database) = s.databases := by
  rw [forwardings_eq hf, List.map_map]
  conv_rhs => rw [← List.map_id s.databases]
  exact List.map_congr_left fun db _ => database_forDatabase lib f db

end Settings

/-! ### Handles -/

section Archives

variable {α C ε : Type} {openCache : Forwarding → Except ε C} {outside : Forwarding → Outside α}

namespace Archives

/-- What was started, in order. -/
theorem forall₂_startAll {fs : List Forwarding} {archives : Archives α C}
    (h : startAll openCache outside fs = .ok archives) :
    List.Forall₂ (fun f a => a.1 = f.database ∧ a.2.sink = newSink f (outside f)) fs archives := by
  induction fs generalizing archives with
  | nil =>
    obtain rfl := Except.ok.inj h
    exact .nil
  | cons f fs ih =>
    obtain ⟨r, hr, h⟩ := bind_ok h
    obtain ⟨rest, hrest, h⟩ := bind_ok h
    obtain rfl := Except.ok.inj h
    refine .cons ⟨rfl, ?_⟩ (ih hrest)
    have hstart := ok_of_mapError hr
    unfold start at hstart
    cases hopen : openCache f with
    | error e =>
      rw [hopen] at hstart
      cases hstart
    | ok cache =>
      rw [hopen] at hstart
      rw [← Except.ok.inj hstart]

/-- A database that has a pipeline has a handle, and it is that pipeline's. -/
theorem handle_of_mem {fs : List Forwarding} {archives : Archives α C}
    (h : List.Forall₂ (fun f a => a.1 = f.database ∧ a.2.sink = newSink f (outside f)) fs archives)
    {database : String} (hmem : database ∈ fs.map (·.database)) :
    ∃ r f, handle archives database = some r ∧ f ∈ fs ∧ f.database = database ∧
      r.sink = newSink f (outside f) := by
  induction h with
  | nil => cases hmem
  | @cons f a fs archives ha hrest ih =>
    unfold handle
    rw [List.find?_cons]
    by_cases hname : a.1 = database
    · rw [decide_eq_true hname]
      exact ⟨a.2, f, rfl, List.mem_cons_self, ha.1.symm.trans hname, ha.2⟩
    · rw [decide_eq_false hname]
      rw [List.map_cons, List.mem_cons] at hmem
      have hother : database ∈ fs.map (·.database) := by
        refine hmem.resolve_left fun hsame => hname ?_
        rw [ha.1, hsame]
      obtain ⟨r, g, hr, hg, hdb, hsink⟩ := ih hother
      exact ⟨r, g, hr, List.mem_cons_of_mem _ hg, hdb, hsink⟩

end Archives

/-- A stream is given to the handle of the database it lands in. -/
theorem ofStream_eq {archives : Archives α C} {d : Device} {stream : Stream} {db : String}
    (h : (stream, db) ∈ d.streams) : archives.ofStream d stream = archives.handle db := by
  unfold Device.streams at h
  unfold Archives.ofStream
  cases hkind : d.kind with
  | can fd =>
    rw [hkind] at h
    obtain ⟨rfl, rfl⟩ := Prod.mk.inj (List.mem_singleton.mp h)
    rfl
  | serial s =>
    rw [hkind] at h
    rcases List.mem_append.mp h with h | h
    · obtain ⟨framing, -, h⟩ := Option.map_eq_some_iff.mp (Option.mem_toList.mp h)
      obtain ⟨rfl, rfl⟩ := Prod.mk.inj h
      rfl
    · obtain ⟨raw, hraw, h⟩ := Option.map_eq_some_iff.mp (Option.mem_toList.mp h)
      obtain ⟨rfl, rfl⟩ := Prod.mk.inj h
      dsimp only
      rw [hraw, Option.bind_some]

/-- The pipeline of a database of the settings. -/
theorem handle_of_mem_databases {lib : SettingsLib} {s : Settings} {f : Forward}
    (hf : s.forward = some f) {archives : Archives α C}
    (hstart : Archives.startAll openCache outside (s.forwardings lib) = .ok archives) {db : String}
    (hdb : db ∈ s.databases) :
    ∃ r, archives.handle db = some r ∧
      ∃ g : Forwarding, g.database = db ∧ g.devices = s.devicesIn db ∧
        g.rawSerial = s.carriesRawSerial db ∧ r.sink = newSink g (outside g) := by
  rw [← @Settings.database_forwardings lib s f hf] at hdb
  obtain ⟨r, g, hr, hg, hname, hsink⟩ := Archives.handle_of_mem (Archives.forall₂_startAll hstart) hdb
  refine ⟨r, hr, g, hname, ?_, ?_, hsink⟩
  all_goals
    rw [Settings.forwardings_eq hf] at hg
    obtain ⟨db', -, rfl⟩ := List.mem_map.mp hg
    obtain rfl : db' = db := (Settings.database_forDatabase lib f db').symm.trans hname
    rfl

theorem streams_have_pipelines {lib : SettingsLib} {s : Settings}
    (hcheck : check lib s = .ok ()) {archives : Archives α C}
    (hstart : Archives.startAll openCache outside (s.forwardings lib) = .ok archives) :
    s.databases.Nodup ∧
    (∀ db, db ∈ s.databases ↔
      (∃ d ∈ s.devices, ∃ stream, (stream, db) ∈ d.streams) ∨
        (s.ingest.isSome = true ∧ db = s.defaultDatabase)) ∧
    (s.forward.isSome = true →
      (s.forwardings lib).map (·.database) = s.databases ∧
      ∀ d ∈ s.devices, ∀ stream db, (stream, db) ∈ d.streams →
        ∃ r, archives.handle db = some r ∧ archives.ofStream d stream = some r ∧
          r.sink.database = db ∧
          (⟨d.bus, d.interface⟩ : WireTap.Device) ∈ (hello r.sink).devices ∧
          (stream = .raw → r.sink.rawSerial = true)) ∧
    (s.ingest.isSome = true → ∃ r, archives.handle s.defaultDatabase = some r ∧
      r.sink.database = s.defaultDatabase) := by
  have hmem : ∀ db, db ∈ s.databases ↔ (∃ d ∈ s.devices, ∃ stream, (stream, db) ∈ d.streams) ∨
      (s.ingest.isSome = true ∧ db = s.defaultDatabase) := by
    intro db
    simp only [Settings.mem_databases, mem_databases_iff_stream]
  refine ⟨s.nodup_databases, hmem, fun hon => ?_, fun hingest => ?_⟩
  · obtain ⟨f, hf⟩ := Option.isSome_iff_exists.mp hon
    refine ⟨Settings.database_forwardings hf, fun d hd stream db hstream => ?_⟩
    -- The stream's database is one of the settings', so it has a pipeline with their devices.
    obtain ⟨r, hr, g, hname, hdevices, hraw, hsink⟩ := handle_of_mem_databases hf hstart
      ((hmem db).mpr (.inl ⟨d, hd, stream, hstream⟩))
    refine ⟨r, hr, (ofStream_eq hstream).trans hr, ?_, ?_, ?_⟩
    · rw [hsink]
      exact hname
    · rw [hsink]
      show _ ∈ g.devices
      rw [hdevices]
      exact Settings.mem_devicesIn hd (mem_databases_iff_stream.mpr ⟨stream, hstream⟩)
    · rintro rfl
      rw [hsink]
      exact hraw.trans (Settings.carriesRawSerial_of_stream hd hstream)
  · -- `check` refuses ingest without `[forward]`.
    cases hf : s.forward with
    | none =>
      unfold check at hcheck
      rw [hingest, hf] at hcheck
      split_ifs at hcheck
      simp_all
    | some f =>
      obtain ⟨r, hr, g, hname, -, -, hsink⟩ := handle_of_mem_databases hf hstart
        ((hmem _).mpr (.inr ⟨hingest, rfl⟩))
      refine ⟨r, hr, ?_⟩
      rw [hsink]
      exact hname

end Archives

/-- No catalogues, nothing in the dead-letter file and no gateway. -/
def noOutside : Outside Nat where
  catalogues :=
    { dir := none, lines := [], distinct := List.nodup_nil, assigned := ∅, refused := ∅,
      changes := 0, disk := {} }
  turns := []
  dials := []
  quarantines := []
  dead := .empty

/-- A cache that opens, with nothing in it. -/
def openEmpty (_ : Forwarding) : Except String (SqliteCache Nat) := .ok (.opened .empty 1000 {})

/-- A CAN bus in the default, a serial line in two databases of its own, and the ingest listener. -/
def fleetFile : FileConfig :=
  { (default : FileConfig) with
    ingest := { (default : IngestSection) with enable := some true }
    device :=
      [{ (default : DeviceSection) with kind := some "can", interface := some "can0" },
        { (default : DeviceSection) with
          kind := some "serial"
          interface := some "/dev/ttyUSB0"
          baud := some 9600
          framing := some "modbus-rtu"
          capture := some "both"
          database := some "fleet"
          rawDatabase := some "lines" }] }

theorem streams_have_pipelines_fleet :
    ∃ r archives, Settings.resolve .onDisk (cachedCli "/var/lib/wiretap/cache.db") (some fleetFile)
        none benchEnv = .ok r ∧
      check .onDisk r.settings = .ok () ∧
      Archives.startAll openEmpty (fun _ => noOutside) (r.settings.forwardings .onDisk) =
        .ok archives ∧
      r.settings.databases = ["", "fleet", "lines"] ∧ r.settings.databases.Nodup ∧
      ∃ can line : Device, r.settings.devices = [can, line] ∧
        (∃ p, archives.ofStream can .can = some p ∧ p.sink.database = "" ∧
          (⟨can.bus, "can0"⟩ : WireTap.Device) ∈ (hello p.sink).devices) ∧
        (∃ p, archives.ofStream line .framed = some p ∧ p.sink.database = "fleet" ∧
          (⟨line.bus, "/dev/ttyUSB0"⟩ : WireTap.Device) ∈ (hello p.sink).devices) ∧
        (∃ p, archives.ofStream line .raw = some p ∧ p.sink.database = "lines" ∧
          (⟨line.bus, "/dev/ttyUSB0"⟩ : WireTap.Device) ∈ (hello p.sink).devices ∧
          p.sink.rawSerial = true) ∧
        ∃ p, archives.handle "" = some p ∧ p.sink.database = "" := by
  obtain ⟨r, hr⟩ : ∃ r, Settings.resolve .onDisk (cachedCli "/var/lib/wiretap/cache.db")
      (some fleetFile) none benchEnv = .ok r := ⟨_, rfl⟩
  obtain ⟨archives, harchives⟩ : ∃ archives, Archives.startAll openEmpty (fun _ => noOutside)
      (r.settings.forwardings .onDisk) = .ok archives := by
    obtain rfl := Except.ok.inj hr
    exact ⟨_, rfl⟩
  have hcheck : check .onDisk r.settings = .ok () := by
    obtain rfl := Except.ok.inj hr
    rfl
  obtain ⟨hnodup, -, hstreams, hingest⟩ := streams_have_pipelines hcheck harchives
  refine ⟨r, archives, hr, hcheck, harchives, ?_, hnodup, ?_⟩
  · obtain rfl := Except.ok.inj hr
    rfl
  obtain rfl := Except.ok.inj hr
  obtain ⟨-, hstreams⟩ := hstreams rfl
  have hline := hstreams _ (List.mem_cons_of_mem _ List.mem_cons_self)
  refine ⟨_, _, rfl, ?_, ?_, ?_, hingest rfl⟩
  · obtain ⟨p, -, hp, hdb, hhello, -⟩ := hstreams _ List.mem_cons_self .can ""
      (List.mem_singleton_self _)
    exact ⟨p, hp, hdb, hhello⟩
  · obtain ⟨p, -, hp, hdb, hhello, -⟩ := hline .framed "fleet" List.mem_cons_self
    exact ⟨p, hp, hdb, hhello⟩
  · obtain ⟨p, -, hp, hdb, hhello, hraw⟩ := hline .raw "lines"
      (List.mem_cons_of_mem _ List.mem_cons_self)
    exact ⟨p, hp, hdb, hhello, hraw rfl⟩

end WireTap.Daemon
