import WireTap.Gateway.Hello
import WireTap.Gateway.Routes

/-!
# The gateway's ingest listener

`IngestServer`: every connection's session loop, the `HELLO`s and batches it is handed, and the
registry of live sessions they share.  A handler runs from one `await` to the next in one step, and a
run is any interleaving of the connections, of what arrives on them, and of the changes other tasks
make to the keys, the catalogues and their assignments.

The protocol crate's `ServerSession` is the parameter `SessionMachine`: which actions it may make of
a message, and how it words an answer.  Its relation leaves the choice to the run.  What a handler
meets in PostgreSQL is part of the event.

`writes` and `opened` are not the program's: what was committed, and the `HELLO`s accepted.  No
handler reads them.  Left out: the peer's address and the times, the decoding of a batch's records
(`FrameRow::new` takes them one by one), and what a `CATALOGUE_STATUS` is recorded as.
-/

namespace WireTap.Gateway

variable {α : Type}

namespace IngestServer

/-! ### The protocol crate -/

/-- `Action`: what the session loop is asked for. -/
inductive Action (α : Type) where
  | reply (r : Reply)
  | hello (h : Hello)
  | helloRefused (status : HelloStatus)
  | batch (seq : UInt32) (samples : List α)
  | nack (seq : UInt32) (status : AckStatus)
  | catalogueGet (sha : Sha) (offset : Nat)
  | catalogueStatus (status : CatalogueStatus)
  deriving DecidableEq

/-- `ServerSession`: whether it may make an action of a message, once a `HELLO` has been accepted or
before, and the words of its answers. -/
structure SessionMachine (α : Type) where
  offers : Bool → Message α → Action α → Bool
  acceptedVersion : HelloStatus → Nat
  answerCatalogue : Sha → Nat → Except ChunkStatus (List UInt8) → CatalogueChunk

/-- What the listener relies on: an action is about the message it was made of, a batch is handed
over only after an accepted `HELLO`, and what was not handed over is not acknowledged. -/
structure SessionMachine.Lawful (machine : SessionMachine α) : Prop where
  reply {accepted : Bool} {m : Message α} {r : Reply} :
    machine.offers accepted m (.reply r) = true → m = .ping ∧ r = .pong
  hello {accepted : Bool} {m : Message α} {h : Hello} :
    machine.offers accepted m (.hello h) = true → m = .hello h
  helloRefused {accepted : Bool} {m : Message α} {status : HelloStatus} :
    machine.offers accepted m (.helloRefused status) = true → (∃ h, m = .hello h) ∧ status ≠ .ok
  batch {accepted : Bool} {m : Message α} {seq : UInt32} {samples : List α} :
    machine.offers accepted m (.batch seq samples) = true → accepted = true ∧ m = .batch seq samples
  nack {accepted : Bool} {m : Message α} {seq : UInt32} {status : AckStatus} :
    machine.offers accepted m (.nack seq status) = true →
      (∃ seq' samples, m = .batch seq' samples) ∧ status ≠ .ok
  catalogueGet {accepted : Bool} {m : Message α} {sha : Sha} {offset : Nat} :
    machine.offers accepted m (.catalogueGet sha offset) = true → m = .catalogueGet sha offset
  catalogueStatus {accepted : Bool} {m : Message α} {status : CatalogueStatus} :
    machine.offers accepted m (.catalogueStatus status) = true → m = .catalogueStatus status

/-! ### The sessions -/

/-- `IngestSessionInfo`. -/
structure IngestSessionInfo where
  keyName : String
  database : String
  protocolVersion : Nat
  frames : Nat
  batches : Nat
  deriving DecidableEq

/-- `Live`; `conn` says whose `Notify` it has. -/
structure Live where
  info : IngestSessionInfo
  daemonId : String
  interfaces : List String
  conn : Nat
  deriving DecidableEq

/-- `Sessions`. -/
structure Sessions where
  inner : List (Nat × Live) := []
  nextId : Nat := 0
  deriving DecidableEq

namespace Sessions

/-- `list`. -/
def list (s : Sessions) : List IngestSessionInfo := s.inner.map fun l => l.2.info

/-- `open`, under the id `nextId`. -/
def «open» (s : Sessions) (info : IngestSessionInfo) (h : Hello) (conn : Nat) : Sessions where
  inner := s.inner ++ [(s.nextId, ⟨info, h.daemonId, h.devices.map Device.name, conn⟩)]
  nextId := s.nextId + 1

/-- `close`. -/
def close (s : Sessions) (id : Nat) : Sessions :=
  { s with inner := s.inner.filter fun l => l.1 ≠ id }

/-- A batch that was stored is counted, if the session is there. -/
def count (s : Sessions) (id rows : Nat) : Sessions :=
  { s with
    inner := s.inner.map fun l =>
      if l.1 = id then
        (l.1, { l.2 with info.frames := l.2.info.frames + rows,
                         info.batches := l.2.info.batches + 1 })
      else l }

/-- The connections `reassign` tells. -/
def affected (s : Sessions) (daemonId interface : String) : List Nat :=
  (s.inner.filter fun l => l.2.daemonId = daemonId && interface ∈ l.2.interfaces).map (·.2.conn)

end Sessions

/-! ### The connections -/

/-- `Session`: what a `HELLO` established. -/
structure IngestSession where
  database : String
  id : Nat
  daemonId : String
  devices : List Device
  deriving DecidableEq

/-- Where a connection's task is. -/
inductive Serving where
  /-- In the loop, with no action in hand. -/
  | waiting
  /-- The `HELLO`'s key was valid and may ingest; `keys`, the store as it was then, is for the
  specifications. -/
  | checked (h : Hello) (info : KeyInfo) (keys : KeyStore)
  /-- The new session is open; the previous one is closed next, and then the `HELLO` answered. -/
  | replacing (previous : Nat) (answer : Reply)
  /-- The batch is stored; its rows are counted next, and then it is acknowledged. -/
  | counting (rows : Nat) (answer : Reply)
  /-- `serve` has returned; the session is closed next. -/
  | ended
  | gone
  deriving DecidableEq

/-- `Connection`, with what has arrived and is unread at either end. -/
structure Conn (α : Type) where
  inbox : List (Message α) := []
  outbox : List Reply := []
  authed : Option IngestSession := none
  /-- The blob last served. -/
  served : Option (Sha × List UInt8) := none
  /-- Its `Notify` has a permit. -/
  reassigned : Bool := false
  task : Serving := .waiting
  deriving DecidableEq

/-- A batch that was committed; `answered` if the gateway learnt of it. -/
structure Stored (α : Type) where
  conn : Nat
  session : Nat
  database : String
  samples : List α
  answered : Bool
  deriving DecidableEq

/-- A `HELLO` that was accepted: the session it opened has its place in `opened` for id. -/
structure Opened where
  conn : Nat
  hello : Hello
  key : KeyInfo
  keys : KeyStore
  database : String
  deriving DecidableEq

/-- The connection has written an answer, and is back in its loop. -/
def Conn.answering (c : Conn α) (r : Reply) : Conn α :=
  { c with outbox := c.outbox ++ [r], task := .waiting }

end IngestServer

structure IngestServer (α : Type) where
  keys : KeyStore
  /-- `catalog_blobs`. -/
  blobs : List (Sha × List UInt8) := []
  sessions : IngestServer.Sessions := {}
  conns : List (IngestServer.Conn α) := []
  writes : List (IngestServer.Stored α) := []
  opened : List IngestServer.Opened := []
  deriving DecidableEq

namespace IngestServer

/-! ### Databases -/

/-- `DbError`: why a capture database cannot be served, never or not yet. -/
inductive DbError where
  | refused
  | unavailable
  deriving DecidableEq

/-- What the listener knows before it asks PostgreSQL. -/
structure Config where
  validDatabaseName : String → Bool
  defaultDatabase : String
  autoCreateDatabases : Bool
  hashKey : String → Hash

/-- `is_gateway_database`. -/
def Config.isGatewayDatabase (cfg : Config) (name : String) : Bool := name = cfg.defaultDatabase

/-- What `ensure_database` meets: an import that holds or makes the database, whether it exists,
how creating it goes, and how it is routed. -/
structure Ensuring where
  held : Bool := false
  importing : Bool := false
  databaseExists : Except String Bool := .ok true
  created : Except String Unit := .ok ()
  routed : Except DbError Unit := .ok ()
  deriving DecidableEq

/-- `ensure_database`. -/
def ensureDatabase (cfg : Config) (name : String) (allowCreate : Bool) (m : Ensuring) :
    Except DbError Unit :=
  if !cfg.validDatabaseName name then .error .refused
  else if cfg.isGatewayDatabase name then .error .refused
  else if m.held then .ok ()
  else if m.importing then .error .unavailable
  else
    match m.databaseExists with
    | .error _ => .error .unavailable
    | .ok true => m.routed
    | .ok false =>
      if !(allowCreate && cfg.autoCreateDatabases) then .error .refused
      else
        match m.created with
        | .error _ => .error .unavailable
        | .ok () => m.routed

/-- How `write_rows` ends. -/
inductive WriteMet where
  | stored
  /-- Nothing was committed: `WriteError::Copy`, with the SQLSTATE PostgreSQL gave. -/
  | copy (code : Option String)
  /-- Nothing was committed: `WriteError::Db`. -/
  | db
  /-- It was committed, and its answer lost: a `WriteError::Copy` without a SQLSTATE. -/
  | unanswered
  deriving DecidableEq

/-- What a handler meets. -/
structure Met where
  /-- `wrong_keys` admits one more wrong key. -/
  admitted : Bool := true
  ensuring : Ensuring := {}
  /-- `record_hello`. -/
  recorded : Except String Unit := .ok ()
  /-- `assignments_for`. -/
  read : Except String (List Assignment) := .ok []
  write : WriteMet := .stored
  /-- Reading the blob fails. -/
  blobFails : Bool := false
  deriving DecidableEq

/-! ### The handlers -/

/-- `HELLO_BAD_AUTH`. -/
def badAuth : HelloStatus := .other 1

/-- `validate_from`: a wrong key is counted, and past the limit refused; a right one never is. -/
def validateFrom (cfg : Config) (keys : KeyStore) (admitted : Bool) (key : String) :
    Except Unit (Option KeyInfo) :=
  match keys.validate cfg.hashKey key with
  | some info => .ok (some info)
  | none => if admitted then .ok none else .error ()

/-- `handle_hello`, up to the key's role. -/
def authenticate (cfg : Config) (keys : KeyStore) (admitted : Bool) (h : Hello) :
    Except HelloStatus KeyInfo :=
  match validateFrom cfg keys admitted h.token with
  | .error () => .error badAuth
  | .ok none => .error badAuth
  | .ok (some info) => if info.role.allowsIngest then .ok info else .error badAuth

/-- The database named, or else the key's pin; a pinned key may not name any other. -/
def database (info : KeyInfo) (requested : String) : Except HelloStatus String :=
  match info.databasePin with
  | some pin => if requested = "" ∨ requested = pin then .ok pin else .error badAuth
  | none => if requested = "" then .error .badDatabase else .ok requested

/-- The rest of `handle_hello`, before the session is opened. -/
def welcome (cfg : Config) (h : Hello) (info : KeyInfo) (m : Met) :
    Except HelloStatus (String × List Assignment) :=
  match database info h.database with
  | .error status => .error status
  | .ok name =>
    match ensureDatabase cfg name true m.ensuring with
    | .error .refused => .error .badDatabase
    | .error .unavailable => .error .unavailable
    | .ok () => .ok (name, if h.daemonId = "" then [] else daemonHello m.recorded m.read)

/-- `refused_the_rows`: a data exception or an integrity constraint violation. -/
def refusedTheRows (code : Option String) : Bool :=
  code.any fun c => c.startsWith "22" || c.startsWith "23"

/-- `ack_for_copy_error`. -/
def ackForCopyError (code : Option String) : AckStatus :=
  if refusedTheRows code then .malformed else .overloaded

/-- `blob`: what a `CATALOGUE_GET` is answered with, and the blob then remembered. -/
def blob (blobs : List (Sha × List UInt8)) (served : Option (Sha × List UInt8)) (sha : Sha)
    (fails : Bool) : Except ChunkStatus (List UInt8) × Option (Sha × List UInt8) :=
  match served.filter fun b => b.1 = sha with
  | some (_, content) => (.ok content, served)
  | none =>
    if fails then (.error .unavailable, served)
    else
      match blobs.lookup sha with
      | none => (.error .unknown, served)
      | some content => (.ok content, some (sha, content))

/-! ### Steps -/

def setConn (s : IngestServer α) (i : Nat) (c : Conn α) : IngestServer α :=
  { s with conns := s.conns.set i c }

def helloAnswer (machine : SessionMachine α) (status : HelloStatus)
    (assignments : List Assignment) : Reply :=
  .helloAck ⟨status, machine.acceptedVersion status, assignments⟩

variable (cfg : Config) (machine : SessionMachine α)

/-- The action made of a message, up to the handler's next `await` that another task may come in
at. -/
def perform (s : IngestServer α) (i : Nat) (c : Conn α) (m : Met) :
    Action α → Option (IngestServer α)
  | .reply r => some (s.setConn i (c.answering r))
  | .hello h =>
    match authenticate cfg s.keys m.admitted h with
    | .error status => some (s.setConn i (c.answering (helloAnswer machine status [])))
    | .ok info => some (s.setConn i { c with task := .checked h info s.keys })
  | .helloRefused status => some (s.setConn i (c.answering (helloAnswer machine status [])))
  | .batch seq samples =>
    match c.authed with
    -- `expect`: the machine hands over no batch before a `HELLO` it was told to accept.
    | none => none
    | some session =>
      let stored (answered : Bool) : Stored α :=
        ⟨i, session.id, session.database, samples, answered⟩
      match m.write with
      | .stored =>
        some { s.setConn i { c with task := .counting samples.length (.ack ⟨seq, .ok⟩) } with
               writes := s.writes ++ [stored true] }
      | .copy code => some (s.setConn i (c.answering (.ack ⟨seq, ackForCopyError code⟩)))
      | .db => some (s.setConn i (c.answering (.ack ⟨seq, .overloaded⟩)))
      | .unanswered =>
        some { s.setConn i (c.answering (.ack ⟨seq, ackForCopyError none⟩)) with
               writes := s.writes ++ [stored false] }
  | .nack seq status => some (s.setConn i (c.answering (.ack ⟨seq, status⟩)))
  | .catalogueGet sha offset =>
    let (found, served) := blob s.blobs c.served sha m.blobFails
    some (s.setConn i ({ c with served }.answering
      (.catalogue (machine.answerCatalogue sha offset found))))
  | .catalogueStatus _ => some (s.setConn i c)

/-- The rest of a `HELLO` whose key was good: the session is opened and takes the place of the one
before it. -/
def greet (s : IngestServer α) (i : Nat) (c : Conn α) (h : Hello) (info : KeyInfo)
    (keys : KeyStore) (m : Met) : IngestServer α :=
  match welcome cfg h info m with
  | .error status => s.setConn i (c.answering (helloAnswer machine status []))
  | .ok (name, assignments) =>
    let session : IngestSession := ⟨name, s.sessions.nextId, h.daemonId, h.devices⟩
    let answer := helloAnswer machine .ok assignments
    let c' := { c with authed := some session }
    let c' := match c.authed with
      | some previous => { c' with task := .replacing previous.id answer }
      | none => c'.answering answer
    { s.setConn i c' with
      sessions := s.sessions.open ⟨info.name, name, h.version, 0, 0⟩ h i
      opened := s.opened ++ [⟨i, h, info, keys, name⟩] }

/-- A connection's task goes on from where it waits. -/
def resume (s : IngestServer α) (i : Nat) (c : Conn α) (m : Met) :
    Serving → Option (IngestServer α)
  | .waiting => none
  | .checked h info keys => some (s.greet cfg machine i c h info keys m)
  | .replacing previous answer =>
    some { s.setConn i (c.answering answer) with sessions := s.sessions.close previous }
  | .counting rows answer =>
    match c.authed with
    | none => none
    | some session =>
      some { s.setConn i (c.answering answer) with
             sessions := s.sessions.count session.id rows }
  | .ended =>
    match c.authed with
    | none => some (s.setConn i { c with task := .gone })
    | some session =>
      some { s.setConn i { c with task := .gone } with sessions := s.sessions.close session.id }
  | .gone => none

inductive IngestEvent (α : Type) where
  /-- A client connects. -/
  | accept
  /-- A message arrives whole. -/
  | arrive (i : Nat) (m : Message α)
  /-- The client reads the next answer. -/
  | take (i : Nat)
  /-- The loop comes to the next message, and the machine makes this of it. -/
  | handle (i : Nat) (action : Action α) (m : Met)
  | resume (i : Nat) (m : Met)
  /-- The `Notify` wakes the loop, which closes the session. -/
  | wake (i : Nat)
  /-- The loop ends: the client is gone or silent, or the machine closes. -/
  | hangUp (i : Nat)
  /-- `Sessions::reassign`. -/
  | reassign (daemonId interface : String)
  /-- The key store takes a step. -/
  | keys (e : KeyEvent)
  /-- A catalogue is stored, unless it is there. -/
  | store (sha : Sha) (content : List UInt8)
  deriving DecidableEq

/-- One step; `none` where it cannot happen. -/
def step (s : IngestServer α) : IngestEvent α → Option (IngestServer α)
  | .accept => some { s with conns := s.conns ++ [{}] }
  | .arrive i m => s.conns[i]?.map fun c => s.setConn i { c with inbox := c.inbox ++ [m] }
  | .take i =>
    match s.conns[i]? with
    | some c => if c.outbox = [] then none else some (s.setConn i { c with outbox := c.outbox.tail })
    | none => none
  | .handle i action met =>
    match s.conns[i]? with
    | some c =>
      match c.task, c.inbox with
      | .waiting, m :: inbox =>
        if machine.offers c.authed.isSome m action then
          s.perform cfg machine i { c with inbox } met action
        else none
      | _, _ => none
    | none => none
  | .resume i met =>
    match s.conns[i]? with
    | some c => s.resume cfg machine i c met c.task
    | none => none
  | .wake i =>
    match s.conns[i]? with
    | some c =>
      if c.task = .waiting ∧ c.reassigned then
        some (s.setConn i { c with outbox := c.outbox ++ [.close .reassigned], reassigned := false,
                                   task := .ended })
      else none
    | none => none
  | .hangUp i =>
    match s.conns[i]? with
    | some c => if c.task = .waiting then some (s.setConn i { c with task := .ended }) else none
    | none => none
  | .reassign daemonId interface =>
    let told := s.sessions.affected daemonId interface
    some { s with conns := s.conns.mapIdx fun i c =>
      if i ∈ told then { c with reassigned := true } else c }
  | .keys e => (s.keys.step e).map fun keys => { s with keys }
  | .store sha content =>
    some (if (s.blobs.lookup sha).isSome then s else { s with blobs := s.blobs ++ [(sha, content)] })

/-- A listener that has just been bound. -/
def init (keys : KeyStore) (blobs : List (Sha × List UInt8)) : IngestServer α := { keys, blobs }

end IngestServer

end WireTap.Gateway
