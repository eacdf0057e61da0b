import Mathlib.Data.List.Basic
import Mathlib.Tactic.SplitIfs
import WireTap.Daemon.Equiv.Start

/-!
# The settings as a function of the layers

Each field of the settings that resolve is one layer's value (`OfLayers`): `[forward]` and `[ingest]`
are on or off by `forwardOn` and `ingestOn`, and a key of theirs is the file's where it has one, else
the flag's.  So two configurations resolve to the same settings where they agree in what these come
to (`eq_of_ofLayers`).
-/

namespace WireTap.Daemon

namespace Settings

/-! ### Sections -/

/-- Whether there is an `[ingest]`; the file's `enable = false` is not over a flag. -/
def ingestOn (cli : Cli) (file : Option FileConfig) : Bool :=
  match file.bind (·.ingest.enable) with
  | some true => true
  | some false => cli.ingestEnable && cli.isGiven "ingest_enable"
  | none => cli.ingestEnable

/-- `[forward]` with the file over the flags, before the gaps are filled. -/
def writtenForward (lib : SettingsLib) (cli : Cli) (file : Option FileConfig) (env : Env) :
    Forward where
  host := (file.bind (·.forward.host)).getD cli.forwardHost
  port := (file.bind (·.forward.port)).getD cli.forwardPort
  apiKey := (file.bind (·.forward.apiKey)).getD (cli.forwardApiKey.getD "")
  database := (file.bind (·.forward.database)).getD cli.forwardDatabase
  batching :=
    { size := (file.bind (·.forward.batchSize)).getD cli.pgBatchSize
      flushInterval := (file.bind (·.forward.flushInterval)).getD cli.pgFlushInterval
      queueSize := (file.bind (·.forward.queueSize)).getD cli.pgQueueSize
      cachePath := cachePathOf lib cli file env
      cacheMaxMb := (file.bind (·.forward.cacheMaxMb)).getD cli.pgCacheMaxMb
      queueFlushPct := (file.bind (·.forward.queueFlushPct)).getD cli.pgQueueFlushPct
      legacyCachePath := none }
  daemonId := daemonIdOf file env

/-- `[ingest]` with the file over the flags, before the gaps are filled. -/
def writtenIngest (cli : Cli) (file : Option FileConfig) : Ingest where
  host := (file.bind (·.ingest.host)).getD cli.ingestHost
  port := (file.bind (·.ingest.port)).getD cli.ingestPort
  token := (file.bind (·.ingest.token)).getD (cli.ingestToken.getD "")
  keepaliveSecs := (file.bind (·.ingest.keepaliveSecs)).getD cli.ingestKeepaliveSecs
  maxBatchFrames := (file.bind (·.ingest.maxBatchFrames)).getD cli.ingestMaxBatchFrames

/-- `[forward]`. -/
def forwardOf (lib : SettingsLib) (cli : Cli) (file : Option FileConfig) (ui : Option UiConfig)
    (env : Env) : Option Forward :=
  if forwardOn cli file then
    let f := writtenForward lib cli file env
    some
      { f with
        apiKey := fillSecret f.apiKey env.forwardApiKey (ui.bind (·.forward.apiKey))
        batching :=
          { f.batching with legacyCachePath := legacyCachePath lib f.batching.cachePath env } }
  else none

/-- `[ingest]`. -/
def ingestOf (cli : Cli) (file : Option FileConfig) (ui : Option UiConfig) (env : Env) :
    Option Ingest :=
  if ingestOn cli file then
    let i := writtenIngest cli file
    some { i with token := fillSecret i.token env.ingestToken (ui.bind (·.ingest.token)) }
  else none

theorem applyForward_flags (lib : SettingsLib) (cli : Cli) (env : Env) (f : FileConfig) :
    applyForward lib cli env f.forward
        (if cli.forwardEnable then some (.fromCli lib cli env) else none) =
      if forwardOn cli (some f) then some (writtenForward lib cli (some f) env) else none := by
  unfold applyForward
  dsimp only
  generalize hbase : (if f.forward.enable = some false && !cli.isGiven "forward_enable" then none
    else if cli.forwardEnable then some (Forward.fromCli lib cli env) else none) = base
  -- Whichever `[forward]` the file is written over, it is the flags'.
  have hflags : base.getD (.fromCli lib cli env) = .fromCli lib cli env := by
    rw [← hbase]
    split_ifs <;> rfl
  have hon : (f.forward.enable = some true || base.isSome) = forwardOn cli (some f) := by
    rw [← hbase]
    unfold forwardOn
    rw [Option.bind_some]
    rcases henable : f.forward.enable with _ | _ | _ <;> cases cli.forwardEnable <;>
      cases cli.isGiven "forward_enable" <;> rfl
  rw [hflags, hon]
  rfl

theorem applyIngest_flags (cli : Cli) (f : FileConfig) :
    applyIngest cli f.ingest (if cli.ingestEnable then some (.fromCli cli) else none) =
      if ingestOn cli (some f) then some (writtenIngest cli (some f)) else none := by
  unfold applyIngest
  dsimp only
  generalize hbase : (if f.ingest.enable = some false && !cli.isGiven "ingest_enable" then none
    else if cli.ingestEnable then some (Ingest.fromCli cli) else none) = base
  have hflags : base.getD (.fromCli cli) = .fromCli cli := by
    rw [← hbase]
    split_ifs <;> rfl
  have hon : (f.ingest.enable = some true || base.isSome) = ingestOn cli (some f) := by
    rw [← hbase]
    unfold ingestOn
    rw [Option.bind_some]
    rcases henable : f.ingest.enable with _ | _ | _ <;> cases cli.ingestEnable <;>
      cases cli.isGiven "ingest_enable" <;> rfl
  rw [hflags, hon]
  rfl

/-! ### All of it -/

/-- The log level, from the file or the flags. -/
def logLevelOf (cli : Cli) (file : Option FileConfig) : Except SettingsError LogLevel :=
  parseLogLevel ((file.bind (·.logging.level)).getD cli.logLevel)

/-- What each field comes from. -/
structure OfLayers (lib : SettingsLib) (cli : Cli) (file : Option FileConfig)
    (ui : Option UiConfig) (env : Env) (s : Settings) : Prop where
  fixed : Fixed lib cli file env s
  clients : allowedClientsOf lib cli file = .ok (s.allowedClients, s.allowedClientsSource)
  echoConsole : s.echoConsole = (file.bind (·.server.echoConsole)).getD cli.echoConsole
  colour : s.colour = (file.bind (·.server.colour)).getD cli.colour
  canFd : s.canFd = (file.bind (·.server.canFd)).getD cli.canFd
  logLevel : logLevelOf cli file = .ok s.logLevel
  ingest : s.ingest = ingestOf cli file ui env
  forward : s.forward = forwardOf lib cli file ui env
  checked : checkForward lib s.forward = .ok ()
  devices : ∃ set, deviceSet lib cli file ui = .ok set ∧
    buildDevices lib s (parseIfaces set.1) set.2 = .ok s.devices

theorem ofLayers_of_layers {lib : SettingsLib} {cli : Cli} {file : Option FileConfig}
    {ui : Option UiConfig} {env : Env} {r : Resolved} (h : Layers lib cli file ui env r) :
    OfLayers lib cli file ui env r.settings := by
  have hfixed := fixed_of_layers h
  obtain ⟨-, s₀, s₁, set, dir, devices, hcli, hfile, hset, -, hcheck, hdevices, hr⟩ := h
  obtain ⟨⟨clients, source⟩, hclients, hcli⟩ := bind_ok hcli
  obtain ⟨dir₀, -, hcli⟩ := bind_ok hcli
  obtain ⟨level, hlevel, hcli⟩ := bind_ok hcli
  obtain rfl := Except.ok.inj hcli
  rw [hr] at hfixed ⊢
  -- Without a file what the flags came to stands; with one each section is laid over it.
  cases file with
  | none =>
    obtain rfl := Except.ok.inj hfile
    refine ⟨hfixed, hclients, rfl, rfl, rfl, hlevel, ?_, ?_, hcheck, set, hset, hdevices⟩
    · show (if cli.ingestEnable then some (Ingest.fromCli cli) else none).map _ = _
      unfold ingestOf ingestOn
      cases cli.ingestEnable <;> rfl
    · show (if cli.forwardEnable then some (Forward.fromCli lib cli env) else none).map _ = _
      unfold forwardOf forwardOn
      cases cli.forwardEnable <;> rfl
  | some f =>
    obtain ⟨dir₁, -, hfile⟩ := bind_ok hfile
    obtain ⟨level₁, hlevel₁, hfile⟩ := bind_ok hfile
    obtain rfl := Except.ok.inj hfile
    refine ⟨hfixed, hclients, rfl, rfl, rfl, ?_, ?_, ?_, hcheck, set, hset, hdevices⟩
    · unfold logLevelOf
      rw [Option.bind_some]
      unfold overLogLevel at hlevel₁
      cases hf : f.logging.level with
      | none =>
        rw [hf] at hlevel₁
        obtain rfl := Except.ok.inj hlevel₁
        exact hlevel
      | some text =>
        rw [hf] at hlevel₁
        exact hlevel₁
    · show (applyIngest cli f.ingest _).map _ = _
      rw [applyIngest_flags]
      unfold ingestOf
      split_ifs <;> rfl
    · show (applyForward lib cli env f.forward _).map _ = _
      rw [applyForward_flags]
      unfold forwardOf
      split_ifs <;> rfl

theorem ofLayers_of_resolve {lib : SettingsLib} {cli : Cli} {file : Option FileConfig}
    {ui : UiConfig} {env : Env} {r : Resolved} (h : resolve lib cli file (some ui) env = .ok r) :
    OfLayers lib (ui.beneath cli) file (some ui) env r.settings :=
  ofLayers_of_layers (layers_of_resolveLayered h)

/-- Devices are built from three of the settings. -/
theorem buildDevices_congr {lib : SettingsLib} {s s' : Settings} (hfd : s.canFd = s'.canFd)
    (hoffset : s.busOffset = s'.busOffset) (hforward : s.forward = s'.forward)
    (sugar : List String) (tables : List DeviceSection) :
    buildDevices lib s sugar tables = buildDevices lib s' sugar tables := by
  unfold buildDevices defaultDatabase
  rw [hfd, hoffset, hforward]

/-- What a UI wrote decides `[forward]`, `[ingest]`, the log level and the devices, and no more. -/
theorem eq_of_ofLayers {lib : SettingsLib} {cli : Cli} {file : Option FileConfig}
    {ui ui' : UiConfig} {env : Env} {s s' : Settings}
    (h : OfLayers lib (ui.beneath cli) file (some ui) env s)
    (h' : OfLayers lib (ui'.beneath cli) file (some ui') env s')
    (hforward : forwardOf lib (ui.beneath cli) file (some ui) env =
      forwardOf lib (ui'.beneath cli) file (some ui') env)
    (hingest : ingestOf (ui.beneath cli) file (some ui) env =
      ingestOf (ui'.beneath cli) file (some ui') env)
    (hlevel : logLevelOf (ui.beneath cli) file = logLevelOf (ui'.beneath cli) file)
    (hset : deviceSet lib (ui.beneath cli) file (some ui) =
      deviceSet lib (ui'.beneath cli) file (some ui')) : s = s' := by
  have hfd : s.canFd = s'.canFd := h.canFd.trans h'.canFd.symm
  have hoffset : s.busOffset = s'.busOffset := h.fixed.busOffset.trans h'.fixed.busOffset.symm
  have hsame : s.forward = s'.forward := by
    rw [h.forward, h'.forward, hforward]
  have hdevices : s.devices = s'.devices := by
    obtain ⟨set, hs, hbuilt⟩ := h.devices
    obtain ⟨set', hs', hbuilt'⟩ := h'.devices
    rw [hset, hs'] at hs
    obtain rfl := Except.ok.inj hs
    rw [buildDevices_congr hfd hoffset hsame] at hbuilt
    exact Except.ok.inj (hbuilt.symm.trans hbuilt')
  have hclients := Prod.mk.inj (Except.ok.inj (h.clients.symm.trans h'.clients))
  have hlevels : s.logLevel = s'.logLevel := by
    have := h.logLevel
    rw [hlevel, h'.logLevel] at this
    exact (Except.ok.inj this).symm
  have hdir := Except.ok.inj (h.fixed.defaultDir.symm.trans h'.fixed.defaultDir)
  cases s
  cases s'
  congr
  · exact h.fixed.host.trans h'.fixed.host.symm
  · exact h.fixed.port.trans h'.fixed.port.symm
  · exact hclients.1
  · exact hclients.2
  · exact h.echoConsole.trans h'.echoConsole.symm
  · exact h.colour.trans h'.colour.symm
  · exact h.fixed.statsInterval.trans h'.fixed.statsInterval.symm
  · exact h.ingest.trans (hingest.trans h'.ingest.symm)
  · exact h.fixed.testPattern.trans h'.fixed.testPattern.symm

end Settings

end WireTap.Daemon
