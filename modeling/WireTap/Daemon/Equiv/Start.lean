import Mathlib.Data.List.Basic
import Mathlib.Tactic.SplitIfs
import WireTap.Daemon.Start
import WireTap.Daemon.Equiv.Settings

/-!
# What a UI cannot change

`start_transmits_no_more`: whatever is in `ui.toml`, the devices that are active and the interfaces
that are armed at a start are so without the UI's settings, too; and who may connect, where, and what
the daemon is called are the same.

Two runs of `resolve` are compared by what one run comes to.  What the UI cannot reach is a function
of the other layers (`Fixed`), so it is the same in both.  The devices are the same up to what they
forward (`Device.Like`) where another layer names them; where the UI names them they are passive
(`mode_of_mem_uiTables`).
-/

namespace WireTap.Daemon

/-- A result whose error was renamed is the result. -/
theorem ok_of_mapError {ε ε' α : Type} {x : Except ε α} {f : ε → ε'} {a : α}
    (h : x.mapError f = .ok a) : x = .ok a := by
  cases x with
  | error e => cases h
  | ok b =>
    obtain rfl := Except.ok.inj h
    rfl

/-! ### Devices up to what they forward -/

/-- Two devices on one interface, alike in what they may transmit. -/
structure Device.Like (d d₀ : Device) : Prop where
  interface : d.interface = d₀.interface
  mode : d.mode = d₀.mode
  bus : d.bus = d₀.bus
  isCan : d.isCan = d₀.isCan

namespace Device

theorem Like.rfl {d : Device} : d.Like d := ⟨Eq.refl _, Eq.refl _, Eq.refl _, Eq.refl _⟩

/-- Something is captured. -/
theorem captures_of_parseCapture {lib : SettingsLib} {capture : Option String} {framed raw : Bool}
    (h : parseCapture lib capture = .ok (framed, raw)) : framed = true ∨ raw = true := by
  unfold parseCapture at h
  split at h
  · obtain ⟨rfl, rfl⟩ := Prod.mk.inj (Except.ok.inj h)
    exact .inl rfl
  · split_ifs at h <;> obtain ⟨rfl, rfl⟩ := Prod.mk.inj (Except.ok.inj h) <;> simp

theorem isSome_of_parseFraming {lib : SettingsLib} {framing : Option String}
    {result : Option Framing} (h : parseFraming lib true framing = .ok result) :
    result.isSome = true := by
  obtain ⟨text, -, h⟩ := bind_ok h
  split_ifs at h
  obtain rfl := Except.ok.inj h
  rfl

/-- What a table's kind comes to. -/
theorem tableKind_eq_ok {lib : SettingsLib} {t : DeviceSection} {canFd : Bool} {database : String}
    {mode : Option Mode} {kind : String} {k : DeviceKind} {m : Mode}
    (h : tableKind lib t canFd database mode kind = .ok (k, m)) :
    (kind = "can" ∧ (∃ fd, k = .can fd) ∧ m = mode.getD .active) ∨
      (kind = "serial" ∧
        (∃ s, k = .serial s ∧ (s.framing.isSome = true ∨ s.rawDatabase.isSome = true)) ∧
        m = .passive) := by
  unfold tableKind at h
  split_ifs at h with hcan hserial
  · left
    unfold canKind at h
    iterate 8 obtain ⟨-, -, h⟩ := bind_ok h
    obtain ⟨rfl, rfl⟩ := Prod.mk.inj (Except.ok.inj h)
    exact ⟨hcan, ⟨_, rfl⟩, rfl⟩
  · right
    unfold serialKind at h
    obtain ⟨-, -, h⟩ := bind_ok h
    obtain ⟨-, -, h⟩ := bind_ok h
    obtain ⟨baud, -, h⟩ := bind_ok h
    obtain ⟨-, -, h⟩ := bind_ok h
    obtain ⟨parity, -, h⟩ := bind_ok h
    obtain ⟨-, -, h⟩ := bind_ok h
    obtain ⟨⟨framed, raw⟩, hcapture, h⟩ := bind_ok h
    obtain ⟨-, -, h⟩ := bind_ok h
    obtain ⟨-, -, h⟩ := bind_ok h
    obtain ⟨framing, hframing, h⟩ := bind_ok h
    obtain ⟨catalogue, -, h⟩ := bind_ok h
    obtain ⟨rfl, rfl⟩ := Prod.mk.inj (Except.ok.inj h)
    refine ⟨hserial, ⟨_, rfl, ?_⟩, rfl⟩
    rcases captures_of_parseCapture hcapture with rfl | rfl
    · exact .inl (isSome_of_parseFraming hframing)
    · exact .inr rfl

/-- What a table comes to. -/
theorem fromTable_eq_ok {lib : SettingsLib} {t : DeviceSection} {canFd : Bool} {database : String}
    {d : Device} (h : fromTable lib t canFd database = .ok d) :
    ∃ mode kind, need t.interface "interface" = .ok d.interface ∧ parseMode lib t.mode = .ok mode ∧
      need t.kind "kind" = .ok kind ∧ d.bus = 0 ∧ d.databases ≠ [] ∧
      ((kind = "can" ∧ d.isCan = true ∧ d.mode = mode.getD .active) ∨
        (kind = "serial" ∧ d.isCan = false ∧ d.mode = .passive)) := by
  obtain ⟨interface, hinterface, h⟩ := bind_ok h
  obtain ⟨mode, hmode, h⟩ := bind_ok h
  obtain ⟨kind, hkind, h⟩ := bind_ok h
  obtain ⟨⟨k, m⟩, htable, h⟩ := bind_ok h
  obtain rfl := Except.ok.inj h
  rcases tableKind_eq_ok htable with ⟨hcan, ⟨fd, rfl⟩, rfl⟩ | ⟨hserial, ⟨s, rfl, hs⟩, rfl⟩
  · exact ⟨mode, kind, hinterface, hmode, hkind, rfl, List.cons_ne_nil _ _, .inl ⟨hcan, rfl, rfl⟩⟩
  · refine ⟨mode, kind, hinterface, hmode, hkind, rfl, ?_, .inr ⟨hserial, rfl, rfl⟩⟩
    rcases hs with hs | hs
    · obtain ⟨framing, hs⟩ := Option.isSome_iff_exists.mp hs
      simp [databases, hs]
    · obtain ⟨raw, hs⟩ := Option.isSome_iff_exists.mp hs
      simp [databases, hs]

/-- One table, with other defaults, is a like device. -/
theorem like_of_fromTable {lib : SettingsLib} {t : DeviceSection} {canFd canFd₀ : Bool}
    {database database₀ : String} {d d₀ : Device} (h : fromTable lib t canFd database = .ok d)
    (h₀ : fromTable lib t canFd₀ database₀ = .ok d₀) : d.Like d₀ := by
  obtain ⟨mode, kind, hinterface, hmode, hkind, hbus, -, hcase⟩ := fromTable_eq_ok h
  obtain ⟨mode₀, kind₀, hinterface₀, hmode₀, hkind₀, hbus₀, -, hcase₀⟩ := fromTable_eq_ok h₀
  obtain rfl := Except.ok.inj (hmode.symm.trans hmode₀)
  obtain rfl := Except.ok.inj (hkind.symm.trans hkind₀)
  have hsame := Except.ok.inj (hinterface.symm.trans hinterface₀)
  rcases hcase with ⟨rfl, hcan, hd⟩ | ⟨rfl, hcan, hd⟩ <;>
    rcases hcase₀ with ⟨hk, hcan₀, hd₀⟩ | ⟨hk, hcan₀, hd₀⟩
  · exact ⟨hsame, hd.trans hd₀.symm, hbus.trans hbus₀.symm, hcan.trans hcan₀.symm⟩
  · simp at hk
  · simp at hk
  · exact ⟨hsame, hd.trans hd₀.symm, hbus.trans hbus₀.symm, hcan.trans hcan₀.symm⟩

end Device

namespace Settings

theorem like_of_tableDevices {lib : SettingsLib} {canFd canFd₀ : Bool} {database database₀ : String}
    {index : Nat} {tables : List DeviceSection} {ds ds₀ : List Device}
    (h : tableDevices lib canFd database index tables = .ok ds)
    (h₀ : tableDevices lib canFd₀ database₀ index tables = .ok ds₀) :
    List.Forall₂ Device.Like ds ds₀ := by
  induction tables generalizing index ds ds₀ with
  | nil =>
    obtain rfl := Except.ok.inj h
    obtain rfl := Except.ok.inj h₀
    exact .nil
  | cons t tables ih =>
    obtain ⟨d, hd, h⟩ := bind_ok h
    obtain ⟨d₀, hd₀, h₀⟩ := bind_ok h₀
    split at h
    · cases h
    · split at h₀
      · cases h₀
      · obtain ⟨rest, hrest, h⟩ := bind_ok h
        obtain ⟨rest₀, hrest₀, h₀⟩ := bind_ok h₀
        obtain rfl := Except.ok.inj h
        obtain rfl := Except.ok.inj h₀
        exact .cons (Device.like_of_fromTable (ok_of_mapError hd) (ok_of_mapError hd₀))
          (ih hrest hrest₀)

/-- Like devices are numbered alike. -/
theorem like_of_number {busOffset : UInt8} {can : Bool} {index n m m₀ : Nat}
    {ds ds₀ es es₀ : List Device} (hlike : List.Forall₂ Device.Like ds ds₀)
    (h : number busOffset can index n ds = .ok (m, es))
    (h₀ : number busOffset can index n ds₀ = .ok (m₀, es₀)) :
    m = m₀ ∧ List.Forall₂ Device.Like es es₀ := by
  induction hlike generalizing index n es es₀ with
  | nil =>
    obtain ⟨rfl, rfl⟩ := Prod.mk.inj (Except.ok.inj h)
    obtain ⟨rfl, rfl⟩ := Prod.mk.inj (Except.ok.inj h₀)
    exact ⟨rfl, .nil⟩
  | @cons d d₀ ds ds₀ hd hds ih =>
    rcases number_cons h with ⟨hkind, bus, rest, hbus, hrest, rfl⟩ | ⟨hkind, rest, hrest, rfl⟩ <;>
      rcases number_cons h₀ with
        ⟨hkind₀, bus₀, rest₀, hbus₀, hrest₀, rfl⟩ | ⟨hkind₀, rest₀, hrest₀, rfl⟩
    · obtain rfl := Option.some.inj (hbus.symm.trans hbus₀)
      obtain ⟨hm, hrest⟩ := ih hrest hrest₀
      exact ⟨hm, .cons ⟨hd.interface, hd.mode, rfl, hd.isCan⟩ hrest⟩
    · rw [← hd.isCan, hkind] at hkind₀
      cases can <;> cases hkind₀
    · rw [← hd.isCan, hkind] at hkind₀
      cases can <;> cases hkind₀
    · obtain ⟨hm, hrest⟩ := ih hrest hrest₀
      exact ⟨hm, .cons hd hrest⟩

/-- One set of devices, with other defaults, is a like one. -/
theorem like_of_buildDevices {lib : SettingsLib} {s s₀ : Settings} {sugar : List String}
    {tables : List DeviceSection} {ds ds₀ : List Device} (hoffset : s.busOffset = s₀.busOffset)
    (h : buildDevices lib s sugar tables = .ok ds)
    (h₀ : buildDevices lib s₀ sugar tables = .ok ds₀) : List.Forall₂ Device.Like ds ds₀ := by
  obtain ⟨ts, hts, h⟩ := bind_ok h
  obtain ⟨-, -, h⟩ := bind_ok h
  obtain ⟨⟨n, es⟩, hes, h⟩ := bind_ok h
  obtain ⟨⟨m, fs⟩, hfs, h⟩ := bind_ok h
  obtain ⟨ts₀, hts₀, h₀⟩ := bind_ok h₀
  obtain ⟨-, -, h₀⟩ := bind_ok h₀
  obtain ⟨⟨n₀, es₀⟩, hes₀, h₀⟩ := bind_ok h₀
  obtain ⟨⟨m₀, fs₀⟩, hfs₀, h₀⟩ := bind_ok h₀
  obtain rfl := Except.ok.inj h
  obtain rfl := Except.ok.inj h₀
  rw [← hoffset] at hes₀ hfs₀
  have hsugar : List.Forall₂ Device.Like (sugar.map (Device.can · s.canFd s.defaultDatabase))
      (sugar.map (Device.can · s₀.canFd s₀.defaultDatabase)) := by
    rw [List.forall₂_map_left_iff, List.forall₂_map_right_iff]
    exact List.forall₂_same.mpr fun name _ => ⟨rfl, rfl, rfl, rfl⟩
  have hall := List.rel_append hsugar (like_of_tableDevices hts hts₀)
  obtain ⟨rfl, hcan⟩ := like_of_number hall hes hes₀
  exact (like_of_number hcan hfs hfs₀).2

/-! ### The UI's devices -/

/-- The UI's tables are passive. -/
theorem mode_of_mem_uiTables {lib : SettingsLib} {index : Nat} {devices : List UiDevice}
    {tables : List DeviceSection} (h : uiTables lib index devices = .ok tables)
    {t : DeviceSection} (ht : t ∈ tables) : t.mode = some "passive" := by
  induction devices generalizing index tables with
  | nil =>
    obtain rfl := Except.ok.inj h
    cases ht
  | cons d devices ih =>
    obtain ⟨u, hu, h⟩ := bind_ok h
    obtain ⟨rest, hrest, h⟩ := bind_ok h
    obtain rfl := Except.ok.inj h
    rcases List.mem_cons.mp ht with rfl | ht
    · have htable := ok_of_mapError hu
      simp only [UiDevice.table] at htable
      split_ifs at htable
      obtain rfl := Except.ok.inj htable
      rfl
    · exact ih hrest ht

/-- What holds of the device each table comes to. -/
theorem forall_tableDevices {P : Device → Prop} {lib : SettingsLib} {canFd : Bool}
    {database : String} {index : Nat} {tables : List DeviceSection} {ds : List Device}
    (hP : ∀ t ∈ tables, ∀ d, Device.fromTable lib t canFd database = .ok d → P d)
    (h : tableDevices lib canFd database index tables = .ok ds) : ∀ d ∈ ds, P d := by
  induction tables generalizing index ds with
  | nil =>
    obtain rfl := Except.ok.inj h
    exact fun _ hd => nomatch hd
  | cons t tables ih =>
    obtain ⟨d, hd, h⟩ := bind_ok h
    split at h
    · cases h
    · obtain ⟨rest, hrest, h⟩ := bind_ok h
      obtain rfl := Except.ok.inj h
      rw [List.forall_mem_cons] at hP ⊢
      exact ⟨hP.1 d (ok_of_mapError hd), ih hP.2 hrest⟩

theorem forall_number {P : Device → Prop} (hbus : ∀ d bus, P d → P { d with bus })
    {busOffset : UInt8} {can : Bool} {index n m : Nat} {ds es : List Device}
    (hP : ∀ d ∈ ds, P d) (h : number busOffset can index n ds = .ok (m, es)) : ∀ d ∈ es, P d := by
  induction ds generalizing index n es with
  | nil =>
    obtain ⟨rfl, rfl⟩ := Prod.mk.inj (Except.ok.inj h)
    exact hP
  | cons d ds ih =>
    rw [List.forall_mem_cons] at hP
    rcases number_cons h with ⟨-, bus, rest, -, hrest, rfl⟩ | ⟨-, rest, hrest, rfl⟩
    · exact List.forall_mem_cons.mpr ⟨hbus d bus hP.1, ih hP.2 hrest⟩
    · exact List.forall_mem_cons.mpr ⟨hP.1, ih hP.2 hrest⟩

theorem forall_buildDevices {P : Device → Prop} (hbus : ∀ d bus, P d → P { d with bus })
    {lib : SettingsLib} {s : Settings} {sugar : List String} {tables : List DeviceSection}
    {ds : List Device} (hsugar : ∀ name ∈ sugar, ∀ fd database, P (.can name fd database))
    (hP : ∀ t ∈ tables, ∀ canFd database d, Device.fromTable lib t canFd database = .ok d → P d)
    (h : buildDevices lib s sugar tables = .ok ds) : ∀ d ∈ ds, P d := by
  obtain ⟨ts, hts, h⟩ := bind_ok h
  obtain ⟨-, -, h⟩ := bind_ok h
  obtain ⟨⟨n, es⟩, hes, h⟩ := bind_ok h
  obtain ⟨⟨m, fs⟩, hfs, h⟩ := bind_ok h
  obtain rfl := Except.ok.inj h
  refine forall_number hbus (forall_number hbus ?_ hes) hfs
  intro d hd
  rcases List.mem_append.mp hd with hd | hd
  · obtain ⟨name, hname, rfl⟩ := List.mem_map.mp hd
    exact hsugar name hname _ _
  · exact forall_tableDevices (fun t ht d hd => hP t ht _ _ d hd) hts d hd

/-- Where the tables are passive and there is no sugar, every device is passive. -/
theorem passive_of_buildDevices {lib : SettingsLib} {s : Settings} {tables : List DeviceSection}
    {ds : List Device} (h : buildDevices lib s [] tables = .ok ds)
    (hpassive : ∀ t ∈ tables, t.mode = some "passive") : ∀ d ∈ ds, d.mode = .passive := by
  refine forall_buildDevices (fun _ _ hd => hd) (fun _ hname => absurd hname List.not_mem_nil) ?_ h
  intro t ht canFd database d hd
  obtain ⟨mode, kind, -, hmode, -, -, -, hcase⟩ := Device.fromTable_eq_ok hd
  rw [hpassive t ht] at hmode
  obtain rfl : some .passive = mode := Except.ok.inj hmode
  rcases hcase with ⟨-, -, hd⟩ | ⟨-, -, hd⟩ <;> exact hd

/-- Every device feeds a database. -/
theorem databases_ne_nil_of_buildDevices {lib : SettingsLib} {s : Settings} {sugar : List String}
    {tables : List DeviceSection} {ds : List Device}
    (h : buildDevices lib s sugar tables = .ok ds) : ∀ d ∈ ds, d.databases ≠ [] := by
  refine forall_buildDevices (fun _ _ hd => hd) (fun _ _ _ _ => List.cons_ne_nil _ _) ?_ h
  intro t ht canFd database d hd
  obtain ⟨-, -, -, -, -, -, hdatabases, -⟩ := Device.fromTable_eq_ok hd
  exact hdatabases

/-- The UI names the devices and they are passive, or the set is what it is without the UI. -/
theorem deviceSet_ui {lib : SettingsLib} {cli : Cli} {file : Option FileConfig} {ui : UiConfig}
    {set set₀ : String × List DeviceSection}
    (h : deviceSet lib (ui.beneath cli) file (some ui) = .ok set)
    (h₀ : deviceSet lib cli file none = .ok set₀) :
    set = set₀ ∨ (set.1 = "" ∧ ∀ t ∈ set.2, t.mode = some "passive") := by
  have hiface : (ui.beneath cli).iface = cli.iface := rfl
  simp only [deviceSet, hiface, Option.bind_some, Option.bind_none] at h h₀
  split at h
  · rename_i sugar hsugar
    rw [hsugar] at h₀
    exact .inl (Except.ok.inj (h.symm.trans h₀))
  · rename_i hsugar
    rw [hsugar] at h₀
    dsimp only at h₀
    split_ifs at h h₀
    · exact .inl (Except.ok.inj (h.symm.trans h₀))
    · split at h
      · right
        cases hui : uiTables lib 0 _ with
        | error e =>
          rw [hui] at h
          cases h
        | ok tables =>
          rw [hui] at h
          obtain rfl := Except.ok.inj h
          exact ⟨rfl, fun t ht => mode_of_mem_uiTables hui ht⟩
      · exact .inl (Except.ok.inj (h.symm.trans h₀))

/-! ### What the UI cannot reach -/

/-- The direction, from the flags and the file. -/
def directionOf (cli : Cli) (file : Option FileConfig) : Except SettingsError Wire.Direction := do
  let dir ← parseDirection cli.defaultDir
  let dir ← overDirection dir (file.bind (·.server.defaultDir))
  overDirection dir cli.pgDir

/-- The responder, from the flags and the file. -/
def testPatternOf (cli : Cli) (file : Option FileConfig) : Option TestPattern :=
  let tp := if cli.testPatternEnable then some (.fromCli cli) else none
  file.elim tp (applyTestPattern cli ·.testPattern tp)

/-- The daemon's name, from the file or the host. -/
def daemonIdOf (file : Option FileConfig) (env : Env) : String :=
  (file.bind (·.forward.daemonId)).getD ((env.hostname.map shortName).getD "")

/-- The cache, from the file, a flag or the environment. -/
def cachePathOf (lib : SettingsLib) (cli : Cli) (file : Option FileConfig) (env : Env) : String :=
  match file.bind (·.forward.cachePath) with
  | some p => cachePath lib (if p.isEmpty then none else some p) env
  | none => cachePath lib cli.pgCachePath env

/-- Whether there is a `[forward]`; the file's `enable = false` is not over a flag. -/
def forwardOn (cli : Cli) (file : Option FileConfig) : Bool :=
  match file.bind (·.forward.enable) with
  | some true => true
  | some false => cli.forwardEnable && cli.isGiven "forward_enable"
  | none => cli.forwardEnable

/-- What it holds, from the file or the flags. -/
structure ForwardOf (lib : SettingsLib) (cli : Cli) (file : Option FileConfig) (env : Env)
    (f : Forward) : Prop where
  daemonId : f.daemonId = daemonIdOf file env
  cachePath : f.batching.cachePath = cachePathOf lib cli file env
  size : f.batching.size = (file.bind (·.forward.batchSize)).getD cli.pgBatchSize
  flushInterval : f.batching.flushInterval =
    (file.bind (·.forward.flushInterval)).getD cli.pgFlushInterval
  queueSize : f.batching.queueSize = (file.bind (·.forward.queueSize)).getD cli.pgQueueSize

theorem forward_of_applyForward {lib : SettingsLib} {cli : Cli} {env : Env} {f : FileConfig}
    {forward : Option Forward}
    (h : applyForward lib cli env f.forward
      (if cli.forwardEnable then some (.fromCli lib cli env) else none) = forward) :
    forward.isSome = forwardOn cli (some f) ∧
      ∀ fwd, forward = some fwd → ForwardOf lib cli (some f) env fwd := by
  simp only [applyForward] at h
  generalize hbase : (if f.forward.enable = some false && !cli.isGiven "forward_enable" then none
    else if cli.forwardEnable then some (Forward.fromCli lib cli env) else none) = base at h
  -- Whichever `[forward]` the file is written over, it is the flags'.
  have hflags : base.getD (.fromCli lib cli env) = .fromCli lib cli env := by
    rw [← hbase]
    split_ifs <;> rfl
  have hon : (f.forward.enable = some true || base.isSome) = forwardOn cli (some f) := by
    rw [← hbase]
    unfold forwardOn
    rw [Option.bind_some]
    rcases henable : f.forward.enable with _ | _ | _ <;> cases cli.forwardEnable <;>
      cases cli.isGiven "forward_enable" <;> rfl
  rw [hflags, hon] at h
  split_ifs at h with hforward
  · rw [← h, hforward]
    refine ⟨rfl, fun fwd hfwd => ?_⟩
    obtain rfl := Option.some.inj hfwd
    exact ⟨rfl, rfl, rfl, rfl, rfl⟩
  · rw [← h, (Bool.not_eq_true _).mp hforward]
    exact ⟨rfl, fun fwd hfwd => nomatch hfwd⟩

/-- What the flags, the file and the environment decide before the devices are built. -/
structure Fixed (lib : SettingsLib) (cli : Cli) (file : Option FileConfig) (env : Env)
    (s : Settings) : Prop where
  host : s.host = (file.bind (·.server.host)).getD cli.host
  port : s.port = (file.bind (·.server.port)).getD cli.port
  busOffset : s.busOffset = (file.bind (·.server.busOffset)).getD cli.busOffset
  allowedClients : ∃ source, allowedClientsOf lib cli file = .ok (s.allowedClients, source)
  defaultDir : directionOf cli file = .ok s.defaultDir
  testPattern : s.testPattern = testPatternOf cli file
  statsInterval : s.statsInterval = (file.bind (·.logging.statsInterval)).getD cli.statsInterval
  isSome_forward : s.forward.isSome = forwardOn cli file
  forward : ∀ f, s.forward = some f → ForwardOf lib cli file env f

theorem fixed_of_layers {lib : SettingsLib} {cli : Cli} {file : Option FileConfig}
    {ui : Option UiConfig} {env : Env} {r : Resolved} (h : Layers lib cli file ui env r) :
    Fixed lib cli file env r.settings := by
  obtain ⟨-, s₀, s₁, set, dir, devices, hcli, hfile, -, hdir, -, -, hr⟩ := h
  obtain ⟨⟨clients, source⟩, hclients, hcli⟩ := bind_ok hcli
  obtain ⟨dir₀, hdir₀, hcli⟩ := bind_ok hcli
  obtain ⟨level, -, hcli⟩ := bind_ok hcli
  obtain rfl := Except.ok.inj hcli
  rw [hr]
  cases file with
  | none =>
    obtain rfl := Except.ok.inj hfile
    refine ⟨rfl, rfl, rfl, ⟨source, hclients⟩, ?_, rfl, rfl, ?_, fun g hg => ?_⟩
    · simp only [directionOf, hdir₀, Option.bind_none]
      exact hdir
    · refine Option.isSome_map.trans ?_
      show (if cli.forwardEnable then some (Forward.fromCli lib cli env) else none).isSome =
        cli.forwardEnable
      cases cli.forwardEnable <;> rfl
    · obtain ⟨g', hg', rfl⟩ := Option.map_eq_some_iff.mp hg
      replace hg' : (if cli.forwardEnable then some (Forward.fromCli lib cli env) else none) =
        some g' := hg'
      split_ifs at hg'
      obtain rfl := Option.some.inj hg'
      exact ⟨rfl, rfl, rfl, rfl, rfl⟩
  | some f =>
    obtain ⟨dir₁, hdir₁, hfile⟩ := bind_ok hfile
    obtain ⟨level₁, -, hfile⟩ := bind_ok hfile
    obtain rfl := Except.ok.inj hfile
    obtain ⟨hon, hforward⟩ := @forward_of_applyForward lib cli env f _ rfl
    refine ⟨rfl, rfl, rfl, ⟨source, hclients⟩, ?_, rfl, rfl, Option.isSome_map.trans hon,
      fun g hg => ?_⟩
    · simp only [directionOf, hdir₀, Option.bind_some]
      exact (congrArg (· >>= fun dir => overDirection dir cli.pgDir) hdir₁).trans hdir
    · obtain ⟨g', hg', rfl⟩ := Option.map_eq_some_iff.mp hg
      have hof := hforward g' hg'
      exact ⟨hof.daemonId, hof.cachePath, hof.size, hof.flushInterval, hof.queueSize⟩

/-! ### Two starts -/

/-- The CAN devices that answer. -/
def armed (s : Settings) (tp : TestPattern) : List Device :=
  (s.armedIndices tp).filterMap (s.canDevices[·]?)

theorem mem_armed {s : Settings} {tp : TestPattern} {d : Device} :
    d ∈ s.armed tp ↔ d ∈ s.devices ∧ d.isCan = true ∧ d.mode = .active ∧
      (tp.ifaces.isEmpty || tp.ifaces.contains d.interface) = true := by
  simp only [armed, armedIndices, List.mem_filterMap, List.mem_map, List.mem_filter,
    Bool.and_eq_true, decide_eq_true_eq, Prod.exists, exists_eq_right, List.mk_mem_zipIdx_iff_getElem?]
  constructor
  · rintro ⟨i, ⟨e, he, hmode, hnamed⟩, hd⟩
    obtain rfl := Option.some.inj (he.symm.trans hd)
    obtain ⟨hmem, hcan⟩ := List.mem_filter.mp (List.mem_of_getElem? hd)
    exact ⟨hmem, hcan, hmode, hnamed⟩
  · rintro ⟨hmem, hcan, hmode, hnamed⟩
    obtain ⟨i, hi⟩ := List.mem_iff_getElem?.mp (List.mem_filter.mpr ⟨hmem, hcan⟩)
    exact ⟨i, ⟨d, hi, hmode, hnamed⟩, hi⟩

/-- What is active and what is armed is so without the UI, and what is not the UI's is the same. -/
structure NoMore (s s₀ : Settings) : Prop where
  active : ∀ d ∈ s.devices, d.mode = .active → ∃ d₀ ∈ s₀.devices, d₀.mode = .active ∧ d.Like d₀
  armed : ∀ tp, ∀ d ∈ s.armed tp, ∃ d₀ ∈ s₀.armed tp, d.Like d₀
  host : s.host = s₀.host
  port : s.port = s₀.port
  allowedClients : s.allowedClients = s₀.allowedClients
  busOffset : s.busOffset = s₀.busOffset
  defaultDir : s.defaultDir = s₀.defaultDir
  testPattern : s.testPattern = s₀.testPattern
  forward : ∀ f f₀, s.forward = some f → s₀.forward = some f₀ →
    f.daemonId = f₀.daemonId ∧ f.batching.cachePath = f₀.batching.cachePath

/-- An active device with the UI's settings is one without them. -/
theorem active_of_ui {lib : SettingsLib} {cli : Cli} {file : Option FileConfig} {ui : UiConfig}
    {env : Env} {r r₀ : Resolved} (h : resolve lib cli file (some ui) env = .ok r)
    (h₀ : resolve lib cli file none env = .ok r₀) {d : Device} (hd : d ∈ r.settings.devices)
    (hactive : d.mode = .active) : ∃ d₀ ∈ r₀.settings.devices, d.Like d₀ := by
  have hoffset : r.settings.busOffset = r₀.settings.busOffset :=
    (fixed_of_layers (layers_of_resolveLayered h)).busOffset.trans
      (fixed_of_layers (layers_of_resolveLayered h₀)).busOffset.symm
  obtain ⟨-, -, s₁, set, dir, devices, -, -, hset, -, -, hdevices, hr⟩ :=
    layers_of_resolveLayered h
  obtain ⟨-, -, t₁, set₀, dir₀, devices₀, -, -, hset₀, -, -, hdevices₀, hr₀⟩ :=
    layers_of_resolveLayered h₀
  rw [hr, hr₀] at hoffset
  rw [hr] at hd
  rcases deviceSet_ui hset hset₀ with rfl | ⟨hsugar, hpassive⟩
  · have hlike := like_of_buildDevices hoffset hdevices hdevices₀
    obtain ⟨i, hi, rfl⟩ := List.mem_iff_getElem.mp hd
    have hi₀ : i < devices₀.length := hlike.length_eq ▸ hi
    refine ⟨devices₀[i], ?_, hlike.get hi hi₀⟩
    rw [hr₀]
    exact List.getElem_mem hi₀
  · rw [hsugar] at hdevices
    have hmode := passive_of_buildDevices hdevices hpassive d hd
    rw [hmode] at hactive
    cases hactive

theorem NoMore.refl (s : Settings) : NoMore s s where
  active := fun d hd hactive => ⟨d, hd, hactive, .rfl⟩
  armed := fun _ d hd => ⟨d, hd, .rfl⟩
  host := rfl
  port := rfl
  allowedClients := rfl
  busOffset := rfl
  defaultDir := rfl
  testPattern := rfl
  forward := by
    rintro f f₀ hf hf₀
    obtain rfl := Option.some.inj (hf.symm.trans hf₀)
    exact ⟨rfl, rfl⟩

theorem noMore_of_resolve {lib : SettingsLib} {cli : Cli} {file : Option FileConfig} {ui : UiConfig}
    {env : Env} {r r₀ : Resolved} (h : resolve lib cli file (some ui) env = .ok r)
    (h₀ : resolve lib cli file none env = .ok r₀) : NoMore r.settings r₀.settings := by
  -- The flags with the UI's values under them differ from the flags in none of these.
  have hfixed : Fixed lib (ui.beneath cli) file env r.settings :=
    fixed_of_layers (layers_of_resolveLayered h)
  have hfixed₀ : Fixed lib cli file env r₀.settings :=
    fixed_of_layers (layers_of_resolveLayered h₀)
  obtain ⟨source, hclients⟩ := hfixed.allowedClients
  obtain ⟨source₀, hclients₀⟩ := hfixed₀.allowedClients
  refine
    { active := fun d hd hactive => ?_
      armed := fun tp d hd => ?_
      host := hfixed.host.trans hfixed₀.host.symm
      port := hfixed.port.trans hfixed₀.port.symm
      allowedClients := (Prod.mk.inj (Except.ok.inj (hclients.symm.trans hclients₀))).1
      busOffset := hfixed.busOffset.trans hfixed₀.busOffset.symm
      defaultDir := Except.ok.inj (hfixed.defaultDir.symm.trans hfixed₀.defaultDir)
      testPattern := hfixed.testPattern.trans hfixed₀.testPattern.symm
      forward := fun f f₀ hf hf₀ => ?_ }
  · obtain ⟨d₀, hd₀, hlike⟩ := active_of_ui h h₀ hd hactive
    exact ⟨d₀, hd₀, hlike.mode.symm.trans hactive, hlike⟩
  · obtain ⟨hmem, hcan, hactive, hnamed⟩ := mem_armed.mp hd
    obtain ⟨d₀, hd₀, hlike⟩ := active_of_ui h h₀ hmem hactive
    refine ⟨d₀, mem_armed.mpr ⟨hd₀, ?_, ?_, ?_⟩, hlike⟩
    · rw [← hlike.isCan, hcan]
    · rw [← hlike.mode, hactive]
    · rw [← hlike.interface, hnamed]
  · have hof := hfixed.forward f hf
    have hof₀ := hfixed₀.forward f₀ hf₀
    exact ⟨hof.daemonId.trans hof₀.daemonId.symm, hof.cachePath.trans hof₀.cachePath.symm⟩

end Settings

/-! ### A start -/

/-- A start goes ahead on what the UI wrote, or on the settings without it. -/
theorem resolveWith_eq_ok {lib : SettingsLib} {cli : Cli} {file : Option FileConfig}
    {path : Option String} {env : Env} {ui ui' : UiConfig} {r : Resolved}
    (h : resolveWith lib cli file path env ui = .ok (r, ui')) :
    (Settings.resolve lib cli file (some ui) env = .ok r ∧ ui' = ui) ∨
      ∃ r₀ why, Settings.resolve lib cli file none env = .ok r₀ ∧ r = ignoring why r₀ := by
  unfold resolveWith at h
  dsimp only at h
  generalize Settings.resolve lib cli file (some ui) env = result at h ⊢
  split at h
  · left
    cases result with
    | error e => cases h
    | ok r' =>
      obtain ⟨rfl, rfl⟩ := Prod.mk.inj (Except.ok.inj h)
      exact ⟨rfl, rfl⟩
  · obtain ⟨r₀, hr₀, h⟩ := bind_ok h
    split at h
    · obtain ⟨rfl, rfl⟩ := Prod.mk.inj (Except.ok.inj h)
      exact .inl ⟨rfl, rfl⟩
    · obtain ⟨rfl, -⟩ := Prod.mk.inj (Except.ok.inj h)
      exact .inr ⟨r₀, _, hr₀, rfl⟩

theorem start_transmits_no_more {lib : SettingsLib} {toml : TomlLib} {cli : Cli}
    {file : Option FileConfig} {path : Option String} {disk : UiFile} {env : Env}
    {r r₀ : Resolved} {ui : UiConfig}
    (h : resolveAtStart lib toml cli file path disk env = .ok (r, ui))
    (h₀ : Settings.resolve lib cli file none env = .ok r₀) :
    Settings.NoMore r.settings r₀.settings := by
  unfold resolveAtStart at h
  split at h
  · rcases resolveWith_eq_ok h with ⟨hui, -⟩ | ⟨r₁, why, h₁, rfl⟩
    · exact Settings.noMore_of_resolve hui h₀
    · obtain rfl := Except.ok.inj (h₁.symm.trans h₀)
      exact .refl _
  · rw [h₀] at h
    obtain ⟨rfl, -⟩ := Prod.mk.inj (Except.ok.inj h)
    exact .refl _

/-- `-i can0,can1` to a gateway, with the responder on. -/
def benchCli : Cli :=
  { Cli.defaults with
    iface := some "can0,can1"
    testPatternEnable := true
    forwardEnable := true
    given := ["iface", "test_pattern_enable", "forward_enable"] }

def benchEnv : Env := { (default : Env) with hostname := some "Bench.local" }

def fleetText : String := "[forward]\ndatabase = \"fleet\"\n"

/-- A UI that names another database. -/
def fleetUi : UiConfig :=
  { (default : UiConfig) with
    forward := { (default : UiForward) with database := some "fleet" } }

def fleetToml : TomlLib where
  fromStr := fun text => if text = fleetText then .ok fleetUi else .error (none, "unknown")
  toStr := fun ui => if ui = fleetUi then .ok fleetText else .error "unknown"

theorem start_transmits_no_more_bench :
    ∃ r r₀, resolveAtStart .bare fleetToml benchCli none (some "ui.toml") (.text fleetText) benchEnv =
        .ok (r, fleetUi) ∧
      Settings.resolve .bare benchCli none none benchEnv = .ok r₀ ∧
      r.settings.devices.map (fun d => (d.interface, d.database)) =
        [("can0", "fleet"), ("can1", "fleet")] ∧
      Settings.NoMore r.settings r₀.settings := by
  obtain ⟨r, h⟩ : ∃ r, resolveAtStart .bare fleetToml benchCli none (some "ui.toml")
      (.text fleetText) benchEnv = .ok (r, fleetUi) := ⟨_, rfl⟩
  obtain ⟨r₀, h₀⟩ : ∃ r₀, Settings.resolve .bare benchCli none none benchEnv = .ok r₀ := ⟨_, rfl⟩
  have hmore := start_transmits_no_more h h₀
  refine ⟨r, r₀, h, h₀, ?_, hmore⟩
  obtain ⟨rfl, -⟩ := Prod.mk.inj (Except.ok.inj h)
  decide

end WireTap.Daemon
