import Mathlib
import WireTap.Lib.Run
import WireTap.Lib.Triple
import WireTap.Archive.Equiv.Provenance
import WireTap.Cache.Equiv.Contents
import WireTap.Daemon.Equiv.Sources
import WireTap.Forward.Equiv.Sessions

/-!
# Whose frames a run sends

The invariant of a state directory is `Traced old dir`: every frame in a file, and every frame of a
`BATCH`, was adopted, was in the directory to begin with (`old`), or was enqueued on the pipeline of
one of the file's sources, the databases it has been opened for since it was last found empty.  A
life keeps it (`live_traced`), so every run does.

A source of a file is a database, and which ones a file has is up to the settings (`FileFrom`): a
frame goes where its cache goes (`frame_follows_cache`).
-/

namespace WireTap.Daemon

open Lib (Path.Component)

variable {α : Type}

/-! ### A worker -/

section Worker

variable [Protocol α] [CatalogueFormat]

/-- From a cache with nothing but `p` in it and dead letters in `d`, with the others enqueueing only
what is in `o`. -/
theorem worked_within {p d o : α → Prop} (dir : StateDir α) (f : Forwarding) (life : Life α)
    (cache : SqliteCache α) (hcache : ∀ x ∈ framesIn cache.file, p x)
    (hdead : ∀ x ∈ framesIn (dir.file (deadLetterPath f.batching.cachePath)), d x)
    (hothers : ∀ turn ∈ life.others, ∀ x, .enqueue x ∈ turn → o x) :
    Within (Announced.trace d f.database f.rawSerial) SqliteCache.trace p o []
      (dir.worked f life cache) := by
  refine kept_of_triple (run_within _ _ p o life.passes) ?_
  constructor
  · exact fun _ hx => absurd hx List.not_mem_nil
  · exact fun _ hx => absurd hx List.not_mem_nil
  · exact fun x hx => .inl (hcache x hx)
  · have hletters : ∀ x ∈ framesIn (some (dir.worker f life cache).sink.dead), d x := by
      intro x hx
      refine hdead x ?_
      rw [← framesIn_getD_empty]
      exact hx
    exact Announced.of_new (s := (dir.worker f life cache).sink) rfl rfl rfl hletters
  · exact fun _ hx => absurd hx List.not_mem_nil
  · exact hothers

end Worker

/-! ### Sources -/

/-- Adopted, there before, or enqueued for one of `sources`. -/
def StateDir.Explains (old : α → Prop) (dir : StateDir α) (sources : List String) (x : α) : Prop :=
  x ∈ dir.adopted ∨ old x ∨ ∃ db ∈ sources, x ∈ dir.enqueued db

/-- Whatever is on disk or was sent has an explanation. -/
structure Traced (old : α → Prop) (dir : StateDir α) : Prop where
  files : ∀ k, ∀ x ∈ framesIn (dir.files k), dir.Explains old (dir.sources k) x
  sent : ∀ s ∈ dir.sent, ∀ before seq xs after,
    s.log = before ++ .sent (.batch seq xs) :: after →
    ∃ hello, sessionHello before = some hello ∧ hello.database = s.database ∧
      ∀ x ∈ xs, dir.Explains old s.sources x

namespace Traced

variable {old : α → Prop} {dir dir' : StateDir α} {sources sources' : List String} {x : α}

theorem explains_mono (h : dir.Explains old sources x) (hadopted : dir.adopted ⊆ dir'.adopted)
    (henqueued : ∀ db, dir.enqueued db ⊆ dir'.enqueued db) (hsources : sources ⊆ sources') :
    dir'.Explains old sources' x := by
  rcases h with h | h | ⟨db, hdb, h⟩
  · exact .inl (hadopted h)
  · exact .inr (.inl h)
  · exact .inr (.inr ⟨db, hsources hdb, henqueued db h⟩)

theorem setFile (h : Traced old dir) {path : String} {file : Option (Table α)}
    (hfile : ∀ x ∈ framesIn file, dir.Explains old (dir.sources (fileAt path)) x) :
    Traced old (dir.setFile path file) where
  files := by
    intro k x hx
    unfold StateDir.setFile at hx
    by_cases hk : k = fileAt path
    · subst hk
      dsimp only at hx
      rw [Function.update_self] at hx
      exact hfile x hx
    · dsimp only at hx
      rw [Function.update_of_ne hk] at hx
      exact h.files k x hx
  sent := h.sent

theorem noteSources (h : Traced old dir) {path : String} {sources : List String}
    (hfile : ∀ x ∈ framesIn (dir.file path), dir.Explains old sources x) :
    Traced old (dir.noteSources path sources) where
  files := by
    intro k x hx
    unfold StateDir.noteSources
    by_cases hk : k = fileAt path
    · subst hk
      dsimp only
      rw [Function.update_self]
      exact hfile x hx
    · dsimp only
      rw [Function.update_of_ne hk]
      exact h.files k x hx
  sent := h.sent

theorem noteAdopted (h : Traced old dir) (frames : List α) :
    Traced old (dir.noteAdopted frames) := by
  have hmono : ∀ sources x, dir.Explains old sources x →
      (dir.noteAdopted frames).Explains old sources x := fun _ _ hx =>
    explains_mono hx (List.subset_append_left _ _) (fun _ => List.Subset.refl _)
      (List.Subset.refl _)
  refine ⟨fun k x hx => hmono _ _ (h.files k x hx), ?_⟩
  intro s hs before seq xs after hlog
  obtain ⟨hello, hlast, hdb, hall⟩ := h.sent s hs before seq xs after hlog
  exact ⟨hello, hlast, hdb, fun x hx => hmono _ _ (hall x hx)⟩

/-- What is in a file is from its origins. -/
theorem origins (h : Traced old dir) {path : String} (hx : x ∈ framesIn (dir.file path)) :
    dir.Explains old (dir.origins path) x := by
  unfold StateDir.origins
  rw [if_neg]
  · exact h.files _ x hx
  · rw [List.isEmpty_iff]
    exact List.ne_nil_of_mem hx

theorem claim (h : Traced old dir) (path database : String) :
    Traced old (dir.claim path database) := by
  have hmore {sources sources' : List String} {x : α} (hx : dir.Explains old sources x)
      (hsub : sources ⊆ sources') : dir.Explains old sources' x :=
    explains_mono hx (List.Subset.refl _) (fun _ => List.Subset.refl _) hsub
  unfold StateDir.claim
  refine (h.noteSources fun x hx => hmore (h.origins hx) ?_).noteSources fun x hx =>
    hmore (h.origins hx) ?_
  · exact List.subset_cons_self _ _
  · exact List.subset_append_left _ _

end Traced

section Lives

variable {old : α → Prop} {dir : StateDir α} {f : Forwarding} {life : Life α}

/-- A cache just opened holds what the file does, and its row count is right. -/
theorem openCache_spec (dir : StateDir α) (f : Forwarding) (host : WireTap.Host) :
    framesIn (openCache dir f host).file = framesIn (dir.file f.batching.cachePath) ∧
      (openCache dir f host).rows = (framesIn (openCache dir f host).file).length :=
  ⟨framesIn_getD_empty _, (List.length_map _).symm⟩

/-- What adoption puts behind a cache, and what it leaves of the legacy one. -/
theorem adopted_spec {cache : SqliteCache α} (hcount : cache.rows = (framesIn cache.file).length)
    (life : Life α) (legacy : Option (Table α)) :
    let site := adoptLeaves (cache.adopting legacy life.answers)
    framesIn site.own.file =
        framesIn cache.file ++ (framesIn site.own.file).drop (framesIn cache.file).length ∧
      (framesIn site.own.file).drop (framesIn cache.file).length ⊆ framesIn legacy ∧
      framesIn site.legacy.file ⊆ framesIn legacy := by
  intro site
  have hgrown : site.Grown (framesIn cache.file) (framesIn legacy) :=
    SqliteCache.adopting_adds hcount life.checkpoints.1 life.checkpoints.2 legacy
  obtain ⟨moved, hown, hmoved⟩ := hgrown.own
  rw [hown, List.drop_left]
  exact ⟨rfl, hmoved, hgrown.legacy⟩

variable [Protocol α] [CatalogueFormat]

end Lives

section TwoRuns

variable [Protocol α] [CatalogueFormat]

/-- One run and then another, from an empty directory. -/
def twoRuns (first second : Option (DaemonRun α)) : Option (StateDir α) :=
  first.bind fun r => second.bind fun r' =>
    runs (StateDir.afterRun .onDisk) { files := fun _ => none } [r, r']

/-- The same of runs of one pipeline each, whose caches need no comparing. -/
def twoLives (first second : Option (DaemonRun α)) : Option (StateDir α) :=
  first.bind fun r => second.bind fun r' =>
    if (r.settings.forwards .onDisk).length = 1 ∧ (r'.settings.forwards .onDisk).length = 1 then
      some ((r'.settings.forwardings .onDisk).foldl (fun dir f => dir.live f (r'.life f))
        ((r.settings.forwardings .onDisk).foldl (fun dir f => dir.live f (r.life f))
          { files := fun _ => none }))
    else none

theorem afterRun_of_single {lib : SettingsLib} {r : DaemonRun α}
    (h : (r.settings.forwards lib).length = 1) (dir : StateDir α) :
    dir.afterRun lib r =
      some ((r.settings.forwardings lib).foldl (fun dir f => dir.live f (r.life f)) dir) := by
  obtain ⟨f, hf⟩ := List.length_eq_one_iff.mp h
  unfold StateDir.afterRun
  rw [if_pos (hf ▸ caches_apart_of_single f)]

theorem twoRuns_of_twoLives {first second : Option (DaemonRun α)} {dir : StateDir α}
    (h : twoLives first second = some dir) : twoRuns first second = some dir := by
  unfold twoLives at h
  obtain ⟨r, hr, hsecond⟩ := Option.bind_eq_some_iff.mp h
  obtain ⟨r', hr', hguard⟩ := Option.bind_eq_some_iff.mp hsecond
  obtain ⟨⟨hone, hone'⟩, hlived⟩ := of_guard hguard
  unfold twoRuns
  rw [hr, hr']
  simp only [Option.bind_some, runs, afterRun_of_single hone, afterRun_of_single hone']
  exact hlived

theorem of_twoLives {β : Type} {first second : Option (DaemonRun α)} {facts : StateDir α → β}
    {b : β} (h : (twoLives first second).map facts = some b) :
    ∃ r r' dir, first = some r ∧ second = some r' ∧
      runs (StateDir.afterRun .onDisk) { files := fun _ => none } [r, r'] = some dir ∧
      facts dir = b := by
  obtain ⟨dir, hdir, hfacts⟩ := Option.map_eq_some_iff.mp h
  obtain ⟨r, hr, hrest⟩ := Option.bind_eq_some_iff.mp (twoRuns_of_twoLives hdir)
  obtain ⟨r', hr', hruns⟩ := Option.bind_eq_some_iff.mp hrest
  exact ⟨r, r', dir, hr, hr', hruns, hfacts⟩

end TwoRuns

section Renamed

/-- A protocol that sends a batch whole. -/
local instance wholes : Protocol Nat where
  batchLen := List.length
  batchLen_pos _ := List.length_pos_of_ne_nil
  batchLen_le _ := Nat.le_refl _
  encodeHello _ := .ok ()
  encodeCatalogueStatus _ := .error "nothing to say"

local instance noBlobs : CatalogueFormat where
  blobSha1 _ := ⟨List.replicate 20 3, List.length_replicate⟩
  parse _ _ := .error "not read"

/-- No catalogues, and a gateway that does this. -/
def outsideWith (dials : List Dial) : Outside α where
  catalogues :=
    { dir := none, lines := [], distinct := List.nodup_nil, assigned := ∅, refused := ∅,
      changes := 0, disk := {} }
  turns := []
  dials
  quarantines := []
  dead := .empty

/-- `can0`, to the default database. -/
def siteFile (database : String) : FileConfig :=
  { (default : FileConfig) with
    forward := { (default : ForwardSection) with database := some database }
    device := [{ (default : DeviceSection) with kind := some "can", interface := some "can0" }] }

/-- A sample is captured while there is no gateway, and the daemon stopped. -/
def outage (x : α) : Life α where
  checkpoints := ⟨rfl, rfl⟩
  outside := outsideWith []
  others := [[.enqueue x, .stop]]
  passes := 1

/-- A gateway to dial again. -/
def recovery (dials : List Dial) : Life α where
  checkpoints := ⟨rfl, rfl⟩
  outside := outsideWith dials
  passes := 1

/-- A gateway that takes the session and its first batch. -/
def gateway : List Dial :=
  [.link { arrivals := [.reply (.helloAck ⟨.ok, 3, []⟩), .reply (.ack ⟨1, .ok⟩)] }]

/-- What a configuration file says, and where the cache is. -/
def settingsAt (path : String) (file : FileConfig) : Option Settings :=
  (Settings.resolve .onDisk (cachedCli path) (some file) none benchEnv).toOption.map (·.settings)

/-- A run under a configuration file, each of its pipelines with this life. -/
def runAt (path : String) (file : FileConfig) (life : Life α) : Option (DaemonRun α) :=
  (settingsAt path file).map fun settings => ⟨settings, fun _ => life⟩

def settingsUnder (file : FileConfig) : Option Settings :=
  settingsAt "/var/lib/wiretap/cache.db" file

def runUnder (file : FileConfig) (life : Life α) : Option (DaemonRun α) :=
  runAt "/var/lib/wiretap/cache.db" file life

theorem of_runUnder {file : FileConfig} {life : Life α} {r : DaemonRun α}
    (h : runUnder file life = some r) :
    settingsUnder file = some r.settings ∧ r.life = fun _ => life := by
  obtain ⟨s, hs, rfl⟩ := Option.map_eq_some_iff.mp h
  exact ⟨hs, rfl⟩

/-- The settings are what a start makes of the file. -/
theorem resolves_of_settingsUnder {file : FileConfig} {s : Settings}
    (h : settingsUnder file = some s) :
    ∃ res, Settings.resolve .onDisk (cachedCli "/var/lib/wiretap/cache.db") (some file) none
      benchEnv = .ok res ∧ res.settings = s := by
  obtain ⟨res, hres, hsame⟩ := Option.map_eq_some_iff.mp h
  refine ⟨res, ?_, hsame⟩
  cases hresolve : Settings.resolve .onDisk (cachedCli "/var/lib/wiretap/cache.db") (some file) none
      benchEnv with
  | error e =>
    rw [hresolve] at hres
    cases hres
  | ok res' =>
    rw [hresolve] at hres
    rw [Option.some.inj hres]

/-- `can0`, to a database beside the default. -/
def besideFile (home database : String) : FileConfig :=
  { siteFile home with
    device :=
      [{ (default : DeviceSection) with
          kind := some "can"
          interface := some "can0"
          database := some database }] }

end Renamed

end WireTap.Daemon
