import WireTap.Daemon.Settings
import WireTap.Lib.Path

/-!
# The files of a cache

Where a pipeline keeps what it has not sent: the disk cache, beside the default's for a database of
its own (`siblingCache`), and what the gateway refused (`deadLetterPath`).  Each is one SQLite
database, of three files (`cacheFiles`).

A path is a text, and two that have the same components are one (`SamePath`), as `Path` compares
them.
-/

namespace WireTap.Daemon

open Lib (Path.components Path.fileName Path.fileStem Path.extension Path.withFileName)

/-- `cache.db` → `cache<suffix>.db`, in the same directory. -/
def withStemSuffix (path suffix : List Char) : List Char :=
  let stem := (Path.fileStem path).getD "cache".toList
  let name := match Path.extension path with
    | some ext => stem ++ suffix ++ '.' :: ext
    | none => stem ++ suffix
  Path.withFileName path name

/-- `cache.db` → `cache-<db>.db`, in the same directory. -/
def siblingCache (path database : String) : String :=
  String.ofList (withStemSuffix path.toList ('-' :: database.toList))

/-- `cache.db` → `cache.dead-letter.db`. -/
def deadLetterPath (path : String) : String :=
  String.ofList (withStemSuffix path.toList ".dead-letter".toList)

/-- `SIDECARS`. -/
def sidecars : List String := ["-wal", "-shm"]

/-- `cache_files`: the database, and the two files SQLite keeps beside it. -/
def cacheFiles (path : String) : List String := path :: sidecars.map (path ++ ·)

/-- One path, however it is spelt. -/
def SamePath (p q : String) : Prop := Path.components p.toList = Path.components q.toList

instance (p q : String) : Decidable (SamePath p q) :=
  inferInstanceAs (Decidable (Path.components p.toList = Path.components q.toList))

/-- Two caches with no file in common. -/
def Apart (p q : String) : Prop := ∀ a ∈ cacheFiles p, ∀ b ∈ cacheFiles q, ¬ SamePath a b

instance (p q : String) : Decidable (Apart p q) :=
  inferInstanceAs (Decidable (∀ a ∈ cacheFiles p, ∀ b ∈ cacheFiles q, ¬ SamePath a b))

/-- The caches of the pipelines, each disk cache before the dead-letter cache beside it. -/
def caches (fs : List Forward) : List String :=
  fs.flatMap fun f => [f.batching.cachePath, deadLetterPath f.batching.cachePath]

end WireTap.Daemon
