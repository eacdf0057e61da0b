import Mathlib
import WireTap.Lib.Run
import WireTap.Archive.Equiv.Provenance
import WireTap.Daemon.Equiv.Pipelines
import WireTap.Daemon.Equiv.Runs
import WireTap.Daemon.Runs
import WireTap.Forward.Equiv.Sessions
import WireTap.Ingest.Equiv.Session

/-!
# Raw serial and the protocol that carries it

A pipeline raw serial can reach has no v2 to fall back on, and every `HELLO` it sends is v3.  One it
cannot reach is fed none: a device's raw stream would make it reachable, and the ingest listener
refuses a batch with raw serial in it (`not_serial_of_feeds`).  What is left is what it finds: a
cache of an earlier run, or a legacy cache, may hold raw serial, which then goes out on whatever
session there is (`cached_raw_serial_on_v2`).  In a sequence of runs in which no such pipeline starts
on one that does, raw serial goes out under a v3 `HELLO` only (`raw_serial_on_v3`).
-/

namespace WireTap.Daemon

open Lib (Path.Component)

/-- A pipeline that cannot be reached by raw serial is fed none. -/
theorem not_serial_of_feeds {s : Settings} {database : String} {x : Wire.Sample}
    (h : Feeds s database x) (hraw : s.carriesRawSerial database = false) : isSerial x = false := by
  cases h with
  | can c hd hstream => rfl
  | framed m hd hstream => rfl
  | raw r hd hstream =>
    rw [Settings.carriesRawSerial_of_stream hd hstream] at hraw
    cases hraw
  | pushed hingest hdefault hrelays hx hnew =>
    rw [hdefault] at hraw
    exact Ingest.not_serial_of_accepted (hrelays.trans hraw) hx hnew

/-- Whether a pipeline may fall back is read off its settings. -/
theorem rawSerial_of_mem_forwardings {lib : SettingsLib} {s : Settings} {f : Forwarding}
    (hf : f ∈ s.forwardings lib) : f.rawSerial = s.carriesRawSerial f.database := by
  cases hforward : s.forward with
  | none =>
    unfold Settings.forwardings at hf
    rw [hforward] at hf
    cases hf
  | some g =>
    rw [Settings.forwardings_eq hforward] at hf
    obtain ⟨database, -, rfl⟩ := List.mem_map.mp hf
    change s.carriesRawSerial database =
      s.carriesRawSerial (Settings.forDatabase lib g database).database
    rw [Settings.database_forDatabase]

/-- No raw serial among these. -/
def NoSerial (xs : List Wire.Sample) : Prop := ∀ x ∈ xs, isSerial x = false

/-- A pipeline without raw serial finds none where it starts: neither in its cache nor in a legacy
cache it adopts. -/
def FindsNone (dir : StateDir Wire.Sample) (f : Forwarding) : Prop :=
  f.rawSerial = false → NoSerial (framesIn (dir.file f.batching.cachePath)) ∧
    ∀ path, legacyOf f = some path → NoSerial (framesIn (dir.file path))

instance (xs : List Wire.Sample) : Decidable (NoSerial xs) :=
  inferInstanceAs (Decidable (∀ x ∈ xs, isSerial x = false))

instance (dir : StateDir Wire.Sample) (f : Forwarding) : Decidable (FindsNone dir f) :=
  inferInstanceAs (Decidable (f.rawSerial = false →
    NoSerial (framesIn (dir.file f.batching.cachePath)) ∧
      ∀ path ∈ legacyOf f, NoSerial (framesIn (dir.file path))))

/-- What a start leaves in the cache is from the cache or from the legacy one. -/
theorem start_finds {dir : StateDir Wire.Sample} {f : Forwarding} (life : Life Wire.Sample)
    (hnone : FindsNone dir f) (hraw : f.rawSerial = false) :
    ∀ cache, (dir.start f life).1 = some cache → NoSerial (framesIn cache.file) := by
  obtain ⟨hcache, hlegacy⟩ := hnone hraw
  obtain ⟨hfile, hcount⟩ := openCache_spec dir f life.host
  have hopened : NoSerial (framesIn (openCache dir f life.host).file) := by
    rw [hfile]
    exact hcache
  intro cache hsome
  unfold StateDir.start at hsome
  dsimp only at hsome
  split at hsome
  · rw [← Option.some.inj hsome]
    exact hopened
  · rename_i path hpath
    split at hsome
    · cases hsome
    · rw [← Option.some.inj hsome]
      obtain ⟨hown, hmoved, -⟩ := adopted_spec hcount life
        (((dir.claim f.batching.cachePath f.database).setFile f.batching.cachePath
          (openCache dir f life.host).file).file path)
      intro x hx
      rw [hown] at hx
      rcases List.mem_append.mp hx with hold | hnew
      · exact hopened x hold
      · have hfound := hmoved hnew
        -- The legacy cache is the one found, unless it is the one just opened.
        unfold StateDir.file StateDir.setFile at hfound
        dsimp only at hfound
        by_cases hsame : fileAt path = fileAt f.batching.cachePath
        · rw [hsame, Function.update_self] at hfound
          exact hopened x hfound
        · rw [Function.update_of_ne hsame] at hfound
          exact hlegacy path hpath x hfound

section Lives

variable [Protocol Wire.Sample] [CatalogueFormat]

/-- Each pipeline of these, as it starts after those before it. -/
def StartsClean (life : Forwarding → Life Wire.Sample) :
    List Forwarding → StateDir Wire.Sample → Prop
  | [], _ => True
  | f :: fs, dir => FindsNone dir f ∧ StartsClean life fs (dir.live f (life f))

instance StartsClean.decidable (life : Forwarding → Life Wire.Sample) :
    ∀ fs dir, Decidable (StartsClean life fs dir)
  | [], _ => inferInstanceAs (Decidable True)
  | f :: fs, dir =>
    have := StartsClean.decidable life fs (dir.live f (life f))
    inferInstanceAs (Decidable (FindsNone dir f ∧ StartsClean life fs (dir.live f (life f))))

/-- Every batch with raw serial in it went out under a v3 `HELLO`. -/
def SerialOnV3 (dir : StateDir Wire.Sample) : Prop :=
  ∀ s ∈ dir.sent, ∀ before seq xs after, s.log = before ++ .sent (.batch seq xs) :: after →
    ∀ x ∈ xs, isSerial x = true →
      ∃ hello, sessionHello before = some hello ∧ hello.version = 3

variable {dir : StateDir Wire.Sample} {f : Forwarding} {life : Life Wire.Sample}

/-- A worker with nothing raw to find and none coming sends none; one with raw serial sends v3. -/
theorem work_serial {cache : SqliteCache Wire.Sample} (h : SerialOnV3 dir)
    (hfed : f.rawSerial = false → ∀ turn ∈ life.others, ∀ x, .enqueue x ∈ turn → isSerial x = false)
    (hcache : f.rawSerial = false → NoSerial (framesIn cache.file)) :
    SerialOnV3 (dir.work f life cache) := by
  intro s hs before seq xs after hlog x hx hserial
  rcases List.mem_append.mp hs with hold | hnew
  · exact h s hold before seq xs after hlog x hx hserial
  · rw [List.mem_singleton.mp hnew] at hlog
    -- What the pipeline may have to do with: anything, if raw serial can reach it.
    let p : Wire.Sample → Prop := fun y => f.rawSerial = false → isSerial y = false
    have hwithin := worked_within (p := p) (d := fun _ => True) (o := p) dir f life cache
      (fun y hy hraw => hcache hraw y hy) (fun _ _ => trivial)
      fun turn hturn y hy hraw => hfed hraw turn hturn y hy
    obtain ⟨hall, hello, hlast, -, hversion⟩ := Announced.sent hwithin.sink hlog
    have hp : p x := (hall x hx).elim id (hwithin.accepted x)
    refine ⟨hello, hlast, hversion ?_⟩
    by_contra hraw
    rw [Bool.not_eq_true] at hraw
    rw [hp hraw] at hserial
    cases hserial

theorem live_serial (h : SerialOnV3 dir)
    (hfed : f.rawSerial = false → ∀ turn ∈ life.others, ∀ x, .enqueue x ∈ turn → isSerial x = false)
    (hnone : FindsNone dir f) : SerialOnV3 (dir.live f life) := by
  unfold StateDir.live
  split
  · have hsent := @sent_start _ dir f life
    have hfinds := start_finds life hnone
    split
    · rename_i dir' hdir
      rw [hdir] at hsent
      unfold SerialOnV3
      rw [hsent]
      exact h
    · rename_i cache dir' hdir
      rw [hdir] at hsent hfinds
      have h' : SerialOnV3 dir' := by
        unfold SerialOnV3
        rw [hsent]
        exact h
      exact work_serial h' hfed fun hraw => hfinds hraw cache rfl
  · exact h

theorem lives_serial {life : Forwarding → Life Wire.Sample} {fs : List Forwarding}
    (h : SerialOnV3 dir)
    (hfed : ∀ f ∈ fs, f.rawSerial = false → ∀ turn ∈ (life f).others, ∀ x, .enqueue x ∈ turn →
      isSerial x = false) (hclean : StartsClean life fs dir) :
    SerialOnV3 (fs.foldl (fun dir f => dir.live f (life f)) dir) := by
  induction fs generalizing dir with
  | nil => exact h
  | cons f fs ih =>
    refine ih (live_serial h (hfed f List.mem_cons_self) hclean.1) ?_ hclean.2
    exact fun g hg => hfed g (List.mem_cons_of_mem f hg)

/-- Raw serial goes out under a v3 `HELLO` only, while no pipeline it cannot reach starts on a cache
that holds some. -/
theorem raw_serial_on_v3 (lib : SettingsLib)
    (files : List Path.Component → Option (Table Wire.Sample)) (rs : List (DaemonRun Wire.Sample))
    (dir : StateDir Wire.Sample) (hfed : ∀ r ∈ rs, r.Fed lib)
    (hclean : Along (StateDir.afterRun lib)
      (fun dir r => StartsClean r.life (r.settings.forwardings lib) dir) { files } rs)
    (hruns : runs (StateDir.afterRun lib) { files } rs = some dir) : SerialOnV3 dir := by
  have hstart : SerialOnV3 { files } := fun _ hs => absurd hs List.not_mem_nil
  refine Along.invariant ?_ hstart (hclean.and_all fun _ => hfed) hruns
  intro dir r dir' h hok hrun
  obtain ⟨-, hfold⟩ := of_guard hrun
  rw [← Option.some.inj hfold]
  refine lives_serial h (fun f hf hraw turn hturn x hx => ?_) hok.1
  refine not_serial_of_feeds (hok.2 f hf turn hturn x hx) ?_
  rw [← rawSerial_of_mem_forwardings hf]
  exact hraw

end Lives

section Downgraded

/-- A protocol that sends a batch whole. -/
local instance wholeSamples : Protocol Wire.Sample where
  batchLen := List.length
  batchLen_pos _ := List.length_pos_of_ne_nil
  batchLen_le _ := Nat.le_refl _
  encodeHello _ := .ok ()
  encodeCatalogueStatus _ := .error "nothing to say"

local instance noBlobs' : CatalogueFormat := noBlobs

/-- A serial line, tapped raw. -/
def tapFile : FileConfig :=
  { (default : FileConfig) with
    device := [{ (default : DeviceSection) with
      kind := some "serial"
      interface := some "/dev/ttyUSB0"
      baud := some 9600
      capture := some "raw" }] }

/-- A chunk off the line. -/
def chunk : Wire.Sample := .serial ⟨0, 0, 0, [1]⟩

/-- A gateway that predates v3. -/
def oldGateway : List Dial :=
  [.link { arrivals := [.reply (.helloAck ⟨.badVersion, 2, []⟩)] },
    .link { arrivals := [.reply (.helloAck ⟨.ok, 2, []⟩), .reply (.ack ⟨1, .ok⟩)] }]

/-- A run in which nothing is enqueued. -/
theorem fed_recovery {file : FileConfig} {dials : List Dial} {r : DaemonRun Wire.Sample}
    (h : runUnder file (recovery dials) = some r) : r.Fed .onDisk := by
  intro f _ turn hturn
  rw [(of_runUnder h).2] at hturn
  cases hturn

/-- The one pipeline under `tapFile` is the default's, which the line's raw stream lands in. -/
theorem tap_spec {s : Settings} (h : settingsUnder tapFile = some s) :
    (∀ f ∈ s.forwardings .onDisk, f.database = "") ∧
      ∃ d ∈ s.devices, (.raw, "") ∈ d.streams := by
  have hall : (settingsUnder tapFile).map (fun s =>
      ((s.forwardings .onDisk).all (fun f => f.database = ""),
        s.devices.any fun d => d.streams.contains (.raw, ""))) = some (true, true) := by
    decide +kernel
  rw [h, Option.map_some] at hall
  obtain ⟨hpipelines, hdevices⟩ := Prod.mk.inj (Option.some.inj hall)
  constructor
  · intro f hf
    simpa using List.all_eq_true.mp hpipelines f hf
  · obtain ⟨d, hd, hstream⟩ := List.any_eq_true.mp hdevices
    exact ⟨d, hd, by simpa using hstream⟩

/-- What is enqueued under `tapFile` is off the line. -/
theorem fed_tap {r : DaemonRun Wire.Sample} (h : runUnder tapFile (outage chunk) = some r) :
    r.Fed .onDisk := by
  obtain ⟨hsettings, hlife⟩ := of_runUnder h
  obtain ⟨hpipelines, d, hd, hstream⟩ := tap_spec hsettings
  intro f hf turn hturn x hx
  rw [hlife] at hturn
  obtain rfl := List.mem_singleton.mp hturn
  obtain rfl : x = chunk := by simpa using hx
  rw [hpipelines f hf]
  exact Feeds.raw _ hd hstream

/-- The link of the run that finds the old gateway. -/
def downgradedLink : Sent Wire.Sample where
  database := ""
  sources := ["", ""]
  log := [.dialled,
    .sent (.hello ⟨3, "", "", "bench", [⟨0, "can0"⟩]⟩),
    .received (.helloAck ⟨.badVersion, 2, []⟩),
    .dialled,
    .sent (.hello ⟨2, "", "", "", []⟩),
    .received (.helloAck ⟨.ok, 2, []⟩),
    .sent (.batch 1 [chunk]),
    .received (.ack ⟨1, .ok⟩)]

/-- What is left of a line tapped raw goes out on v2, if the next run has none and the gateway no
v3. -/
theorem cached_raw_serial_on_v2 :
    ∃ r r' dir, runUnder tapFile (outage chunk) = some r ∧
      runUnder (siteFile "") (recovery oldGateway) = some r' ∧ r.Fed .onDisk ∧ r'.Fed .onDisk ∧
      runs (StateDir.afterRun .onDisk) { files := fun _ => none } [r, r'] = some dir ∧
      ¬ SerialOnV3 dir := by
  have hall : (twoLives (runUnder tapFile (outage chunk))
      (runUnder (siteFile "") (recovery oldGateway))).map (·.sent) =
      some [⟨"", [""], []⟩, downgradedLink] := by decide +kernel
  obtain ⟨r, r', dir, hr, hr', hruns, hsent⟩ := of_twoLives hall
  refine ⟨r, r', dir, hr, hr', fed_tap hr, fed_recovery hr', hruns, fun hv3 => ?_⟩
  have hmem : downgradedLink ∈ dir.sent := by
    rw [hsent]
    exact List.mem_cons_of_mem _ List.mem_cons_self
  obtain ⟨hello, hlast, hversion⟩ := hv3 downgradedLink hmem (downgradedLink.log.take 6) 1 [chunk] _
    rfl chunk List.mem_cons_self rfl
  obtain rfl : hello = ⟨2, "", "", "", []⟩ := (Option.some.inj hlast).symm
  cases hversion

/-- `can0` to a database of its own, beside a serial line tapped raw. -/
def tapBesideFile : FileConfig :=
  { tapFile with device := tapFile.device ++ (besideFile "" "can").device }

/-- A CAN frame off `can0`. -/
def canFrame : Wire.Sample := .can ⟨0, 0x123, false, false, none, false, false, [1], 0, .rx⟩

/-- Each pipeline with what its stream gives, and no gateway. -/
def unreached (f : Forwarding) : Life Wire.Sample :=
  outage (if f.database = "" then chunk else canFrame)

/-- What `tapBesideFile` sets up: the line's raw stream to the default's pipeline, `can0` to a
pipeline of its own, and their caches. -/
theorem tapBeside_spec {s : Settings} (h : settingsUnder tapBesideFile = some s) :
    (s.forwardings .onDisk).map (fun f => (f.database, f.rawSerial)) =
        [("", true), ("can", false)] ∧
      (∃ d ∈ s.devices, (.raw, "") ∈ d.streams) ∧ (∃ d ∈ s.devices, (.can, "can") ∈ d.streams) ∧
      (caches (s.forwards .onDisk)).Pairwise Apart := by
  have hall : (settingsUnder tapBesideFile).map (fun s =>
      ((s.forwardings .onDisk).map (fun f => (f.database, f.rawSerial)),
        s.devices.any (fun d => d.streams.contains (.raw, "")),
        s.devices.any (fun d => d.streams.contains (.can, "can")),
        s.forward.map (·.batching.cachePath))) =
      some ([("", true), ("can", false)], true, true, some "/var/lib/wiretap/cache.db") := by
    decide +kernel
  rw [h, Option.map_some] at hall
  simp only [Option.some.injEq, Prod.mk.injEq] at hall
  obtain ⟨hpipelines, hline, hcan, hforward⟩ := hall
  have hstream {kind : Stream} {database : String}
      (hany : s.devices.any (fun d => d.streams.contains (kind, database)) = true) :
      ∃ d ∈ s.devices, (kind, database) ∈ d.streams := by
    obtain ⟨d, hd, hcontains⟩ := List.any_eq_true.mp hany
    exact ⟨d, hd, by simpa using hcontains⟩
  refine ⟨hpipelines, hstream hline, hstream hcan, ?_⟩
  obtain ⟨f, hf, hpath⟩ := Option.map_eq_some_iff.mp hforward
  obtain ⟨res, hres, rfl⟩ := resolves_of_settingsUnder h
  refine (caches_apart_iff rfl ?_ hres hf).mpr ?_
  · intro name hname
    simp only [SettingsLib.onDisk, SettingsLib.bare, Bool.and_eq_true] at hname
    exact hname.2
  · rintro ⟨-, hextension, -⟩
    rw [hpath] at hextension
    exact absurd hextension (by decide +kernel)

/-- What is left where the pipelines of these settings have had these lives. -/
def lived (s : Settings) (life : Forwarding → Life Wire.Sample) (dir : StateDir Wire.Sample) :
    StateDir Wire.Sample :=
  (s.forwardings .onDisk).foldl (fun dir f => dir.live f (life f)) dir

/-- What is enqueued under `tapBesideFile` is off the line, or off `can0`. -/
theorem fed_unreached {s : Settings} (h : settingsUnder tapBesideFile = some s) :
    DaemonRun.Fed .onDisk ⟨s, unreached⟩ := by
  obtain ⟨hpipelines, ⟨d, hd, hline⟩, ⟨d', hd', hframes⟩, -⟩ := tapBeside_spec h
  intro f hf turn hturn x hx
  obtain rfl := List.mem_singleton.mp hturn
  have hmem : (f.database, f.rawSerial) ∈ [("", true), ("can", false)] := by
    rw [← hpipelines]
    exact List.mem_map_of_mem hf
  simp only [List.mem_cons, Prod.mk.injEq, List.not_mem_nil, or_false] at hmem
  rcases hmem with ⟨hdb, -⟩ | ⟨hdb, -⟩
  · obtain rfl : x = chunk := by simpa [hdb] using hx
    rw [hdb]
    exact Feeds.raw _ hd hline
  · obtain rfl : x = canFrame := by simpa [hdb] using hx
    rw [hdb]
    exact Feeds.can _ hd' hframes

/-- An outage, and a gateway again. -/
def tapRuns (s : Settings) : List (DaemonRun Wire.Sample) :=
  [⟨s, unreached⟩, ⟨s, fun _ => recovery gateway⟩]

/-- Each pipeline caches what its stream gives while there is no gateway, and finds it in the next
run.  The one without raw serial finds a CAN frame. -/
theorem raw_serial_on_v3_tapped :
    ∃ s dir, settingsUnder tapBesideFile = some s ∧
      runs (StateDir.afterRun .onDisk) { files := fun _ => none } (tapRuns s) = some dir ∧
      SerialOnV3 dir ∧ (∃ t ∈ dir.sent, .sent (.batch 1 [chunk]) ∈ t.log) ∧
      ∃ t ∈ dir.sent, t.database = "can" ∧ .sent (.batch 1 [canFrame]) ∈ t.log := by
  have hall : (settingsUnder tapBesideFile).map (fun s =>
      let first := lived s unreached { files := fun _ => none }
      let second := lived s (fun _ => recovery gateway) first
      (decide (StartsClean unreached (s.forwardings .onDisk) { files := fun _ => none } ∧
          StartsClean (fun _ => recovery gateway) (s.forwardings .onDisk) first),
        second.sent.any (fun t => t.log.contains (.sent (.batch 1 [chunk]))),
        second.sent.any (fun t =>
          t.database = "can" && t.log.contains (.sent (.batch 1 [canFrame]))))) =
      some (true, true, true) := by
    decide +kernel
  obtain ⟨s, hs, hfacts⟩ := Option.map_eq_some_iff.mp hall
  simp only [Prod.mk.injEq, decide_eq_true_eq] at hfacts
  obtain ⟨⟨hclean, hclean'⟩, hraw, hcan⟩ := hfacts
  have hafter (life : Forwarding → Life Wire.Sample) (dir : StateDir Wire.Sample) :
      dir.afterRun .onDisk ⟨s, life⟩ = some (lived s life dir) := if_pos (tapBeside_spec hs).2.2.2
  have hfed : ∀ r ∈ tapRuns s, r.Fed .onDisk := by
    intro r hr
    rcases List.mem_pair.mp hr with rfl | rfl
    · exact fed_unreached hs
    · exact fun _ _ _ hturn => absurd hturn List.not_mem_nil
  refine ⟨s, lived s (fun _ => recovery gateway) (lived s unreached { files := fun _ => none }), hs,
    ?_, ?_, ?_, ?_⟩
  · simp only [tapRuns, runs, hafter, Option.bind_some]
  · refine raw_serial_on_v3 .onDisk (fun _ => none) (tapRuns s) _ hfed ?_ ?_
    · simp only [tapRuns, Along, hafter, and_true]
      exact ⟨hclean, hclean'⟩
    · simp only [tapRuns, runs, hafter, Option.bind_some]
  · obtain ⟨t, ht, hlog⟩ := List.any_eq_true.mp hraw
    exact ⟨t, ht, by simpa using hlog⟩
  · obtain ⟨t, ht, hlog⟩ := List.any_eq_true.mp hcan
    exact ⟨t, ht, by simpa using hlog⟩

end Downgraded

end WireTap.Daemon
