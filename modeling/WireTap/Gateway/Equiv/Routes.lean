import Mathlib.Data.List.Basic
import WireTap.Lib.Run
import WireTap.Gateway.Routes

/-!
# What a pinned key can reach

`run_confined`: in every run, what a request under a pinned key does is done to the database it is
pinned to, unless the key is an admin's and the route is behind `check_admin`, which does not look at
the pin; that a query is cancelled by its id is left open.  A download is under the request that
issued its link, however much later it is followed and by whom.

The pin is looked at by `check_read`, by `import_capture` and by `list_databases`; a handler behind
one of them goes on with a database that is the pin.  Handlers are programs that may refuse, and the
invariant (`Confined`) is about the deeds so far and the links still out.
-/

namespace WireTap.Gateway

/-! ### Deeds -/

/-- The caller may do this by this route, as far as its pin goes. -/
def Within (caller : Caller) (request : Request) (database : String) : Prop :=
  ∀ pin, caller.key.databasePin = some pin →
    database = pin ∨ (caller.key.role = .admin ∧ request.administrative = true)

/-- The deed of `cancel_query`. -/
def Deed.CancelsById (d : Deed) : Prop := d.act = .cancels ∧ ∃ id, d.request = .cancelQuery id

/-- What was done was within, but for queries cancelled by their ids, and so is what the links can
do. -/
structure Confined (s : Desk) : Prop where
  log : ∀ d ∈ s.log, d.CancelsById ∨ Within d.caller d.request d.database
  exports : ∀ l ∈ s.exports, Within l.2.caller l.2.request l.2.database

theorem confined_init : Confined Desk.init := ⟨by simp [Desk.init], by simp [Desk.init]⟩

/-- A handler whose deeds are within. -/
abbrev Keeping (handler : Handler Unit) : Prop := Guarded Confined handler fun _ => True

namespace HttpCall

variable {c : HttpCall} {db : String}

theorem keeping_awaits (c : HttpCall) (i : Nat) : Keeping (c.awaits i) := by
  unfold awaits
  split
  · exact .throw
  · exact .pure trivial

theorem keeping_deeds {act : Act} {databases : List String}
    (h : ∀ db ∈ databases, Within c.caller c.request db) : Keeping (c.deeds act databases) := by
  refine .modify fun s hs => ⟨fun d hd => ?_, hs.exports⟩
  rcases List.mem_append.mp hd with hd | hd
  · exact hs.log d hd
  · obtain ⟨db, hdb, rfl⟩ := List.mem_map.mp hd
    exact .inr (h db hdb)

theorem keeping_deed {act : Act} (h : Within c.caller c.request db) :
    Keeping (c.deeds act [db]) :=
  keeping_deeds fun _ hdb => List.mem_singleton.mp hdb ▸ h

/-! ### Checks -/

/-- What an early return leaves is the other case. -/
theorem guarded_refuseIf (p : Bool) (e : ApiError) :
    Guarded Confined (refuseIf p e) fun _ => p = false := by
  unfold refuseIf
  split
  · exact .throw
  · rename_i h
    exact .pure (Bool.not_eq_true p ▸ h)

/-- After it the database is the pin, if there is one. -/
theorem guarded_checkPin (c : HttpCall) (db : String) :
    Guarded Confined (c.checkPin db) fun _ => Within c.caller c.request db := by
  unfold checkPin
  split
  · rename_i pin hpin
    refine (guarded_refuseIf _ _).mono fun _ heq p hp => .inl ?_
    rw [hpin] at hp
    obtain rfl := Option.some.inj hp
    exact (by simpa using heq : pin = db).symm
  · rename_i hpin
    refine .pure fun p hp => ?_
    rw [hpin] at hp
    cases hp

theorem guarded_checkRead (c : HttpCall) (db : String) :
    Guarded Confined (c.checkRead db) fun _ => Within c.caller c.request db :=
  (guarded_refuseIf _ _).bind fun _ _ => guarded_checkPin c db

/-- After `check_admin` the caller is an admin. -/
theorem guarded_checkAdmin (c : HttpCall) :
    Guarded Confined c.checkAdmin fun _ => c.caller.key.role = .admin :=
  (guarded_refuseIf _ _).mono fun _ h => by simpa [Role.allowsAdmin] using h

theorem guarded_checkAdminReauthenticated (c : HttpCall) :
    Guarded Confined c.checkAdminReauthenticated fun _ => c.caller.key.role = .admin := by
  refine (guarded_checkAdmin c).bind fun _ hrole => ?_
  split
  · exact (guarded_refuseIf _ _).mono fun _ _ => hrole
  · exact .pure hrole

/-- An admin is within on a route for admins, whatever the database. -/
theorem within_of_admin (hreq : c.request.administrative = true)
    (hrole : c.caller.key.role = .admin) (db : String) : Within c.caller c.request db :=
  fun _ _ => .inr ⟨hrole, hreq⟩

theorem keeping_clientFor (h : Within c.caller c.request db) : Keeping (c.clientFor db) :=
  (keeping_deed h).bind fun _ _ => (keeping_awaits c 0).bind fun _ _ => keeping_awaits c 1

theorem guarded_window (q : WindowQuery) : Guarded Confined (window q) fun _ => True := by
  unfold window
  split
  · exact .pure trivial
  · split
    · exact .pure trivial
    · exact .throw
  · exact .throw

/-! ### Handlers that read -/

theorem keeping_reading (c : HttpCall) (act : Act) (db : String) : Keeping (c.reading act db) := by
  refine (guarded_checkRead c db).bind fun _ h => ?_
  refine (keeping_clientFor h).bind fun _ _ => ?_
  exact (keeping_deed h).bind fun _ _ => keeping_awaits c 2

theorem keeping_queryHandler (c : HttpCall) (kind : QueryKind) (db : String)
    (queryId : Option String) : Keeping (c.queryHandler kind db queryId) := by
  refine (guarded_checkRead c db).bind fun _ h => ?_
  refine (keeping_clientFor h).bind fun _ _ => ?_
  refine Guarded.bind (.modify fun s hs => ⟨hs.log, hs.exports⟩) fun _ _ => ?_
  exact (keeping_deed h).bind fun _ _ => keeping_awaits c 2

theorem keeping_cancelQuery {id : String} (hreq : c.request = .cancelQuery id) :
    Keeping (c.cancelQuery id) := by
  refine (guarded_refuseIf _ _).bind fun _ _ => ?_
  refine Guarded.get.bind fun s _ => ?_
  refine Guarded.bind (.modify fun s hs => ⟨hs.log, hs.exports⟩) fun _ _ => ?_
  split
  · refine Guarded.bind (.modify fun s hs => ⟨fun d hd => ?_, hs.exports⟩) fun _ _ =>
      keeping_awaits c 0
    rcases List.mem_append.mp hd with hd | hd
    · exact hs.log d hd
    · obtain ⟨db, -, rfl⟩ := List.mem_map.mp hd
      exact .inl ⟨rfl, id, hreq⟩
  · exact .throw

/-- The list has the pin only. -/
theorem within_of_mem_listed (h : db ∈ c.listed) : Within c.caller c.request db := by
  obtain ⟨⟨name, size⟩, -, hname⟩ := List.mem_filterMap.mp h
  intro pin hpin
  refine .inl ?_
  simp only [hpin, Option.any_some] at hname
  split_ifs at hname with hsize hvalid hne
  obtain rfl := Option.some.inj hname
  simpa using Eq.symm (by simpa using hne)

theorem keeping_listDatabases (c : HttpCall) : Keeping c.listDatabases := by
  refine (guarded_refuseIf _ _).bind fun _ _ => ?_
  refine (keeping_awaits c 0).bind fun _ _ => (keeping_awaits c 1).bind fun _ _ => ?_
  exact keeping_deeds fun _ => within_of_mem_listed

theorem keeping_importCapture (c : HttpCall) (db : String) : Keeping (c.importCapture db) := by
  refine (guarded_refuseIf _ _).bind fun _ _ => ?_
  refine (guarded_checkPin c db).bind fun _ h => ?_
  refine (keeping_awaits c 0).bind fun _ _ => (keeping_deed h).bind fun _ _ => ?_
  refine (keeping_awaits c 1).bind fun _ _ => (keeping_deed h).bind fun _ _ => ?_
  exact keeping_awaits c 2

/-! ### Handlers that administer -/

section Administrative

variable (hreq : c.request.administrative = true)

include hreq

theorem keeping_createDatabase (name : String) : Keeping (c.createDatabase name) := by
  refine (guarded_checkAdmin c).bind fun _ hrole => ?_
  refine (guarded_refuseIf _ _).bind fun _ _ => ?_
  exact (keeping_deed (within_of_admin hreq hrole name)).bind fun _ _ => keeping_awaits c 0

theorem keeping_deleteDatabase (db : String) : Keeping (c.deleteDatabase db) := by
  refine (guarded_checkAdminReauthenticated c).bind fun _ hrole => ?_
  refine (guarded_refuseIf _ _).bind fun _ _ => ?_
  refine (guarded_refuseIf _ _).bind fun _ _ => (guarded_refuseIf _ _).bind fun _ _ => ?_
  exact (keeping_deed (within_of_admin hreq hrole db)).bind fun _ _ => keeping_awaits c 0

theorem keeping_migrateDatabase (db : String) : Keeping (c.migrateDatabase db) := by
  refine (guarded_checkAdmin c).bind fun _ hrole => ?_
  exact (keeping_deed (within_of_admin hreq hrole db)).bind fun _ _ => keeping_awaits c 0

theorem keeping_refreshRollup (db : String) : Keeping (c.refreshRollup db) := by
  refine (guarded_checkAdmin c).bind fun _ hrole => ?_
  split
  · exact keeping_deed (within_of_admin hreq hrole db)
  · exact .throw

theorem keeping_exportEstimate (db : String) (q : WindowQuery) :
    Keeping (c.exportEstimate db q) := by
  refine (guarded_checkAdmin c).bind fun _ hrole => ?_
  have hin := within_of_admin hreq hrole db
  refine (guarded_window q).bind fun _ _ => (keeping_clientFor hin).bind fun _ _ => ?_
  exact (keeping_deed hin).bind fun _ _ => keeping_awaits c 2

/-- A link is issued within, and those dropped are no matter. -/
theorem keeping_issue (hrole : c.caller.key.role = .admin) (db : String)
    (window : Option (Int × Int)) : Keeping (c.issue db window) := by
  refine .modify fun s hs => ⟨hs.log, fun l hl => ?_⟩
  rcases List.mem_cons.mp hl with rfl | hl
  · exact within_of_admin hreq hrole db
  · exact hs.exports l (List.mem_of_mem_filter hl)

theorem keeping_exportStart (db : String) (q : WindowQuery) : Keeping (c.exportStart db q) := by
  refine (guarded_checkAdmin c).bind fun _ hrole => ?_
  refine (guarded_window q).bind fun _ _ => ?_
  refine (keeping_clientFor (within_of_admin hreq hrole db)).bind fun _ _ => ?_
  refine (keeping_awaits c 2).bind fun _ _ => (guarded_refuseIf _ _).bind fun _ _ => ?_
  exact keeping_issue hreq hrole db _

theorem keeping_importArchive (db : String) (replace : Bool) :
    Keeping (c.importArchive db replace) := by
  refine (guarded_checkAdmin c).bind fun _ hrole => ?_
  have hproved : Keeping (if replace then c.checkAdminReauthenticated else pure ()) := by
    split
    · exact (guarded_checkAdminReauthenticated c).mono fun _ _ => trivial
    · exact .pure trivial
  refine hproved.bind fun _ _ => ?_
  exact (keeping_deed (within_of_admin hreq hrole db)).bind fun _ _ => keeping_awaits c 0

theorem keeping_activity (db : String) : Keeping (c.activity db) := by
  refine (guarded_checkAdmin c).bind fun _ hrole => ?_
  have hin := within_of_admin hreq hrole db
  refine (keeping_clientFor hin).bind fun _ _ => ?_
  exact (keeping_deed hin).bind fun _ _ => keeping_awaits c 2

theorem keeping_signalBackend (act : Act) (db : String) (pid : Int) :
    Keeping (c.signalBackend act db pid) := by
  refine (guarded_checkAdmin c).bind fun _ hrole => ?_
  refine (keeping_clientFor (within_of_admin hreq hrole db)).bind fun _ _ => ?_
  refine (keeping_deeds fun db _ => within_of_admin hreq hrole db).bind fun _ _ => ?_
  exact keeping_awaits c 2

theorem keeping_ingestSessions : Keeping c.ingestSessions := by
  refine (guarded_checkAdmin c).bind fun _ hrole => ?_
  exact keeping_deeds fun db _ => within_of_admin hreq hrole db

theorem keeping_daemons : Keeping c.daemons := by
  refine (guarded_checkAdmin c).bind fun _ hrole => (keeping_awaits c 0).bind fun _ _ => ?_
  exact keeping_deeds fun db _ => within_of_admin hreq hrole db

end Administrative

theorem keeping_administering (c : HttpCall) : Keeping c.administering :=
  (guarded_checkAdmin c).bind fun _ _ => keeping_awaits c 0

theorem keeping_administeringReauthenticated (c : HttpCall) :
    Keeping c.administeringReauthenticated :=
  (guarded_checkAdminReauthenticated c).bind fun _ _ => keeping_awaits c 0

/-! ### Every route -/

theorem keeping_handle (c : HttpCall) : Keeping c.handle := by
  obtain ⟨caller, request, world⟩ := c
  cases request with
  | whoami => exact .pure trivial
  | listDatabases => exact keeping_listDatabases _
  | createDatabase => exact keeping_createDatabase rfl _
  | deleteDatabase => exact keeping_deleteDatabase rfl _
  | exportStart => exact keeping_exportStart rfl _ _
  | exportEstimate => exact keeping_exportEstimate rfl _ _
  | importArchive => exact keeping_importArchive rfl _ _
  | migrateDatabase => exact keeping_migrateDatabase rfl _
  | refreshRollup => exact keeping_refreshRollup rfl _
  | timeBounds | inventory | frames | payloads | eventsList | eventsCreate | eventsUpdate
  | eventsDelete => exact keeping_reading _ _ _
  | query => exact keeping_queryHandler _ _ _ _
  | cancelQuery => exact keeping_cancelQuery rfl
  | activity => exact keeping_activity rfl _
  | activityCancel | activityTerminate => exact keeping_signalBackend rfl _ _ _
  | importCapture => exact keeping_importCapture _ _
  | ingestSessions => exact keeping_ingestSessions rfl
  | daemons => exact keeping_daemons rfl
  | keysCreate | keysDelete | keysRotate | rotateDbPassword | rotateAdminKey =>
    exact keeping_administeringReauthenticated _
  | keysList | keysEdit | keysDisable | keysEnable | secretsList | assignmentsPut
  | assignmentsDelete | catalogGet | logs => exact keeping_administering _

theorem keeping_serve (c : HttpCall) : Keeping c.serve := by
  unfold serve
  split
  · split
    · exact .throw
    · exact keeping_handle c
  · exact keeping_handle c

end HttpCall

/-- A download is within, as its link is. -/
theorem keeping_exportDownload (w : World) (token : String) :
    Keeping (exportDownload w token) := by
  refine Guarded.get.bind fun s hs => ?_
  refine Guarded.bind (.modify fun s hs => ?_) fun _ _ => ?_
  · exact ⟨hs.log, fun l hl => hs.exports l (List.mem_of_mem_filter hl)⟩
  split
  · rename_i link hlink
    obtain ⟨before, after, heq, -⟩ := List.lookup_eq_some_iff.mp hlink
    have hin : Within link.caller link.request link.database :=
      hs.exports (token, link) (by simp [heq])
    split
    · refine (HttpCall.keeping_deed hin).bind fun _ _ => ?_
      exact (HttpCall.keeping_awaits _ 0).bind fun _ _ => HttpCall.keeping_deed hin
    · exact .throw
  · exact .throw

/-! ### Runs -/

theorem confined_step {s s' : Desk} {e : ApiEvent} (hs : Confined s) (h : s.step e = some s') :
    Confined s' := by
  cases e with
  | request c =>
    obtain rfl := Option.some.inj h
    exact (HttpCall.keeping_serve c s hs).1
  | download w token =>
    obtain rfl := Option.some.inj h
    exact (keeping_exportDownload w token s hs).1
  | finished id =>
    obtain rfl := Option.some.inj h
    exact ⟨hs.log, hs.exports⟩

/-- What a request under a pinned key does, but for cancelling a query by its id, is done to the key's
own database, unless the key is an admin's and the route is for admins. -/
theorem run_confined (es : List ApiEvent) (s : Desk) (hrun : runs Desk.step .init es = some s)
    (d : Deed) (hd : d ∈ s.log) (pin : String) (hpin : d.caller.key.databasePin = some pin)
    (hcancel : ¬ d.CancelsById) :
    d.database = pin ∨ (d.caller.key.role = .admin ∧ d.request.administrative = true) := by
  have hs : Confined s := invariant_of_runs confined_step confined_init hrun
  rcases hs.log d hd with hid | hin
  · exact absurd hid hcancel
  · exact hin pin hpin

/-- A cluster with two capture databases, where nothing fails. -/
def twoDatabases : World where
  defaultDatabase := "wiretap"
  now := 0
  fails := fun _ => none
  rows := [("a", some 1), ("b", some 1), ("wiretap", some 1)]
  validDatabaseName := fun _ => true
  schemaStates := [("a", .current thisVersion), ("b", .current thisVersion)]
  sessions := []
  devices := []
  importBusy := []
  backends := []
  reauthenticationMinutes := 5
  token := "5eed"
  empty := false

/-- A key pinned to the first. -/
def pinnedCaller (role : Role) : Caller := ⟨⟨1, "pinned", role, some "a"⟩, none⟩

/-- A pinned read key lists the databases, and asks for the other one's frames. -/
def pinnedRun : List ApiEvent :=
  [.request ⟨pinnedCaller .read, .listDatabases, twoDatabases⟩,
    .request ⟨pinnedCaller .read, .frames "b", twoDatabases⟩]

theorem run_confined_pinned :
    ∃ s, runs Desk.step .init pinnedRun = some s ∧
      s.log = [⟨pinnedCaller .read, .listDatabases, .lists, "a"⟩] ∧
      ∀ d ∈ s.log, d.database = "a" ∨
        (d.caller.key.role = .admin ∧ d.request.administrative = true) := by
  have hlog : (runs Desk.step .init pinnedRun).map (·.log) =
      some [⟨pinnedCaller .read, .listDatabases, .lists, "a"⟩] := by decide
  obtain ⟨s, hrun, hs⟩ := Option.map_eq_some_iff.mp hlog
  refine ⟨s, hrun, hs, fun d hd => ?_⟩
  obtain rfl : d = ⟨pinnedCaller .read, .listDatabases, .lists, "a"⟩ := by
    rw [hs] at hd
    exact List.mem_singleton.mp hd
  exact run_confined pinnedRun s hrun _ hd "a" rfl (by simp [Deed.CancelsById])

/-- A pinned admin key exports the other database; and a pinned read key cancels a query on it, by
the id another caller's query goes by. -/
theorem pinned_reaches_other :
    (∃ s, runs Desk.step .init
        [.request ⟨pinnedCaller .admin, .exportStart "b" ⟨none, none⟩, twoDatabases⟩,
          .download twoDatabases "5eed"] = some s ∧
      ⟨pinnedCaller .admin, .exportStart "b" ⟨none, none⟩, .exports, "b"⟩ ∈ s.log) ∧
    (∃ s, runs Desk.step .init
        [.request ⟨⟨⟨2, "other", .read, none⟩, none⟩, .query .frequency "b" (some "q"), twoDatabases⟩,
          .request ⟨pinnedCaller .read, .cancelQuery "q", twoDatabases⟩] = some s ∧
      ⟨pinnedCaller .read, .cancelQuery "q", .cancels, "b"⟩ ∈ s.log) :=
  ⟨⟨_, rfl, by decide⟩, ⟨_, rfl, by decide⟩⟩

end WireTap.Gateway
