import WireTap.Archive.Sink
import WireTap.Cache.Sqlite
import WireTap.Forward.Catalogues

/-!
# The forward link

`ForwardSink`, the one `BatchSink`: the client half of the binary ingest protocol, over messages.
The protocol crate is a `Protocol`: how much of a batch one `BATCH` carries, and which `HELLO` and
`CATALOGUE_STATUS` it can encode.  Its message-type numbers are not used.

What the far end does is given in advance.  A `Link` holds how each write still to come ends and
what arrives; the sink holds what each `TcpStream::connect` gives, how each quarantine ends, and
the steps other sessions take on the shared `Catalogues`, a list of them for each time this sink
looks at them.  Every adaptive gateway, timeout and disconnect is some such list.  `log` is what has
been sent, received and quarantined, for the specifications: no function reads it.

Left out: the host and port, and the text of a message's log line.
-/

namespace WireTap

/-! ### Messages -/

structure Hello where
  version : Nat
  token : String
  database : String
  daemonId : String := ""
  devices : List Device := []
  deriving DecidableEq

inductive HelloStatus where
  | ok
  | badVersion
  | unavailable
  | badDatabase
  | other (status : UInt8)
  deriving DecidableEq

/-- A blob the gateway assigned to a bus. -/
structure Assignment where
  bus : UInt8
  blobSha : Sha
  deriving DecidableEq

structure HelloAck where
  status : HelloStatus
  acceptedVersion : Nat
  assignments : List Assignment
  deriving DecidableEq

inductive AckStatus where
  | ok
  | overloaded
  | malformed
  | other (status : UInt8)
  deriving DecidableEq

structure Ack where
  seq : UInt32
  status : AckStatus
  deriving DecidableEq

inductive ChunkStatus where
  | ok
  | unknown
  | unavailable
  | other (status : UInt8)
  deriving DecidableEq

/-- A `CATALOGUE`, with the offset `Catalogue::next` asks for next. -/
structure CatalogueChunk where
  blobSha : Sha
  offset : Nat
  status : ChunkStatus
  data : List UInt8
  next : Option Nat
  deriving DecidableEq

inductive CloseReason where
  | reassigned
  | other (reason : UInt8)
  deriving DecidableEq

/-- What a session sends. -/
inductive Message (α : Type) where
  | hello (h : Hello)
  | batch (seq : UInt32) (samples : List α)
  | ping
  | catalogueGet (sha : Sha) (offset : Nat)
  | catalogueStatus (status : CatalogueStatus)
  deriving DecidableEq

/-- A complete message from the gateway, by type; `bad` where its body does not parse. -/
inductive Reply where
  | ack (ack : Ack)
  | badAck
  | helloAck (ack : HelloAck)
  | badHelloAck (why : String)
  | catalogue (chunk : CatalogueChunk)
  | badCatalogue (why : String)
  | close (reason : CloseReason)
  | badClose (why : String)
  | pong
  | other
  deriving DecidableEq

/-- What the next read of a message comes to. -/
inductive Arrival where
  | reply (r : Reply)
  | badCrc
  | unframed (why : String)
  | failed (why : String)
  | timedOut
  | hungUp
  deriving DecidableEq

/-- How one socket operation ends. -/
inductive Io where
  | ok
  | failed (why : String)
  | timedOut
  deriving DecidableEq

/-- A connection, as what is still going to happen on it. -/
structure Link where
  writes : List Io := []
  arrivals : List Arrival := []
  deriving DecidableEq

inductive Dial where
  | link (l : Link)
  | failed (why : String)
  | timedOut
  deriving DecidableEq

/-- How opening the dead-letter cache and appending to it ends. -/
inductive Quarantine where
  | opens (appendFails : Bool)
  | fails (why : String)
  deriving DecidableEq

/-- A step of another session on the shared catalogues. -/
inductive Elsewhere where
  | apply (updates : List (String × Update))
  | store (sha : String) (blob : List UInt8)
  deriving DecidableEq

/-- What has happened on the link. -/
inductive Event (α : Type) where
  | dialled
  | sent (m : Message α)
  | received (r : Reply)
  | quarantined (samples : List α)
  deriving DecidableEq

/-- The client half of the protocol crate: how many samples from the front one `BATCH` carries, and
what it can encode. -/
class Protocol (α : Type) where
  batchLen : List α → Nat
  batchLen_pos (xs : List α) : xs ≠ [] → 0 < batchLen xs
  batchLen_le (xs : List α) : batchLen xs ≤ xs.length
  encodeHello : Hello → Except String Unit
  encodeCatalogueStatus : CatalogueStatus → Except String Unit

structure ForwardSink (α : Type) where
  apiKey : String
  database : String
  daemonId : String
  devices : List Device
  /-- 3, until a gateway that predates it names 2, and then 2 for good. -/
  version : Nat := 3
  rawSerial : Bool
  catalogues : Catalogues
  /-- The change of the catalogues this session last looked at. -/
  seen : Nat
  conn : Option Link := none
  /-- Wraps with the protocol's `u32`. -/
  seq : UInt32 := 0
  deadLetter : String
  /-- The table in the dead-letter file. -/
  dead : Table α := .empty
  dials : List Dial
  quarantines : List Quarantine := []
  turns : List (List Elsewhere) := []
  log : List (Event α) := []

/-- An operation of the sink. -/
abbrev Fwd (α : Type) := StateM (ForwardSink α)

variable {α : Type}

/-! ### The socket -/

/-- `with_timeout`: name the exchange if it fails. -/
def withTimeout (what : String) : Io → SinkResult
  | .ok => .ok ()
  | .failed why => .error (.failed ("forward: " ++ what ++ " failed: " ++ why))
  | .timedOut => .error (.failed ("forward: timed out on " ++ what))

/-- `closed`: the gateway ended the session. -/
def closed : CloseReason → SinkError
  | .reassigned => .closed "gateway closed the session: catalogue reassigned"
  | .other reason => .closed ("gateway closed the session (reason " ++ toString reason ++ ")")

def SinkError.text : SinkError → String
  | .failed why => why
  | .closed why => why

def note (e : Event α) : Fwd α Unit := modify fun s => { s with log := s.log ++ [e] }

def setConn (conn : Option Link) : Fwd α Unit := modify fun s => { s with conn }

namespace Link

/-- `send`: one whole write. -/
def send (l : Link) (m : Message α) : Fwd α (SinkResult × Link) := do
  let sent := withTimeout "write" (l.writes.headD .ok)
  if let .ok () := sent then note (.sent m)
  return (sent, { l with writes := l.writes.tail })

/-- `recv_any`: read until one complete, intact message has arrived.  A `CLOSE` is the gateway
ending the session, whatever was asked. -/
def recvAny (l : Link) : Fwd α (Except SinkError Reply × Link) := do
  let rest := { l with arrivals := l.arrivals.tail }
  match l.arrivals.headD .timedOut with
  | .unframed why => return (.error (.failed ("forward: " ++ why)), rest)
  | .badCrc => return (.error (.failed "forward: bad CRC from gateway"), rest)
  | .failed why => return (.error (.failed ("forward: read failed: " ++ why)), rest)
  | .timedOut => return (.error (.failed "forward: timed out on read"), rest)
  | .hungUp => return (.error (.failed "forward: gateway closed connection"), rest)
  | .reply r =>
    note (.received r)
    match r with
    | .close reason => return (.error (closed reason), rest)
    | .badClose why => return (.error (.failed ("forward: malformed CLOSE: " ++ why)), rest)
    | r => return (.ok r, rest)

/-- The loop of `recv`; what has still to arrive bounds it. -/
def recvLoop : Nat → Link → Fwd α (Except SinkError Reply × Link)
  | 0, l => l.recvAny
  | fuel + 1, l => do
    let (r, l) ← l.recvAny
    match r with
    | .ok (.catalogue _) => recvLoop fuel l
    | .ok (.badCatalogue _) => recvLoop fuel l
    | r => return (r, l)

/-- `recv`: the next reply that is not a `CATALOGUE`, which would answer a fetch that gave up
waiting for it. -/
def recv (l : Link) : Fwd α (Except SinkError Reply × Link) := recvLoop l.arrivals.length l

/-- The loop of `recv_catalog`. -/
def recvCatalogLoop (sha : Sha) (offset : Nat) :
    Nat → Link → Fwd α (Except String CatalogueChunk × Link)
  | 0, l => return (.error "forward: timed out on read", l)
  | fuel + 1, l => do
    let (r, l) ← l.recvAny
    match r with
    | .error e => return (.error e.text, l)
    | .ok (.catalogue chunk) =>
      if chunk.blobSha = sha ∧ chunk.offset = offset then return (.ok chunk, l)
      else recvCatalogLoop sha offset fuel l
    | .ok (.badCatalogue why) => return (.error why, l)
    | .ok _ => return (.error "a reply of another type", l)

/-- `recv_catalog`: the `CATALOGUE` answering a `CATALOGUE_GET`. -/
def recvCatalog (l : Link) (sha : Sha) (offset : Nat) :
    Fwd α (Except String CatalogueChunk × Link) :=
  recvCatalogLoop sha offset (l.arrivals.length + 1) l

/-- The loop of `fetch`: `blob` has everything before `offset`. -/
def fetchLoop (sha : Sha) :
    Nat → Nat → List UInt8 → Link → Fwd α (Except String (List UInt8) × Link)
  | 0, _, _, l => return (.error "forward: timed out on read", l)
  | fuel + 1, offset, blob, l => do
    let (sent, l) ← l.send (.catalogueGet sha offset)
    match sent with
    | .error e => return (.error e.text, l)
    | .ok () =>
      let (got, l) ← l.recvCatalog sha offset
      match got with
      | .error why => return (.error why, l)
      | .ok chunk =>
        match chunk.status with
        | .unknown => return (.error "the gateway does not have it", l)
        | .unavailable => return (.error "the gateway cannot read it now", l)
        | .other status => return (.error ("CATALOGUE status=" ++ toString status), l)
        | .ok =>
          match chunk.next with
          -- No next offset: that was the last chunk.
          | none => return (.ok (blob ++ chunk.data), l)
          | some offset => fetchLoop sha fuel offset (blob ++ chunk.data) l

/-- `fetch`: a whole blob, a chunk at a time; each takes at least one arrival. -/
def fetch (l : Link) (sha : Sha) : Fwd α (Except String (List UInt8) × Link) :=
  fetchLoop sha (l.arrivals.length + 1) 0 [] l

end Link

/-! ### The shared catalogues -/

section Sink

variable [Protocol α] [CatalogueFormat]

/-- One step of another session. -/
def Catalogues.elsewhere (c : Catalogues) : Elsewhere → Catalogues
  | .apply updates => c.apply updates
  | .store sha blob => (c.store sha blob).2

/-- The other sessions take their next turn. -/
def otherSessions : Fwd α Unit := modify fun s =>
  { s with
    catalogues := (s.turns.headD []).foldl Catalogues.elsewhere s.catalogues
    turns := s.turns.tail }

/-- `catalogue`: the blob `sha`, from the cache or from the gateway. -/
def catalogue (l : Link) (sha : Sha) :
    Fwd α (Except (Refusal × String) LineCatalogue × Link) := do
  otherSessions
  match (← get).catalogues.cached (blobSha1Hex sha) with
  | .ok cached => return (.ok cached, l)
  | .error _ =>
    let (fetched, l) ← l.fetch sha
    match fetched with
    | .error why => return (.error (.fetchFailed, why), l)
    | .ok blob =>
      -- Other sessions may have changed the catalogues during the fetch.
      otherSessions
      let s ← get
      let (stored, catalogues) := s.catalogues.store (blobSha1Hex sha) blob
      set { s with catalogues }
      return (stored, l)

/-- What `pull` asks of one line. -/
def pullLine (assignments : List Assignment) (l : Link) (interface : String) :
    Fwd α (Update × Link) := do
  let device := (← get).devices.find? fun d => d.name = interface
  match device.bind fun d => assignments.find? fun a => a.bus = d.bus with
  | none => return (.cleared, l)
  | some a =>
    let (taken, l) ← catalogue l a.blobSha
    match taken with
    | .ok catalogue => return (.assigned (blobSha1Hex a.blobSha) catalogue, l)
    | .error (refusal, _) => return (.refused a.blobSha refusal, l)

/-- The loop of `pull`. -/
def pullLines (assignments : List Assignment) :
    List String → Link → Fwd α (List (String × Update) × Link)
  | [], l => return ([], l)
  | interface :: rest, l => do
    let (update, l) ← pullLine assignments l interface
    let (updates, l) ← pullLines assignments rest l
    return ((interface, update) :: updates, l)

/-- `pull`: bring the lines this database owns up to what the gateway assigned them. -/
def pull (l : Link) (assignments : List Assignment) : Fwd α Link := do
  let s ← get
  let (updates, l) ← pullLines assignments (s.catalogues.ownedBy s.database) l
  otherSessions
  modify fun s => { s with catalogues := s.catalogues.apply updates }
  return l

/-- `status_message`: the `CATALOGUE_STATUS` of every device in this session's `HELLO`. -/
def statusMessage : Fwd α (Option CatalogueStatus) := do
  otherSessions
  modify fun s => { s with seen := s.catalogues.changes }
  otherSessions
  let s ← get
  let status := s.catalogues.status s.devices
  match Protocol.encodeCatalogueStatus α status with
  | .ok () => return some status
  | .error _ => return none

/-! ### `BatchSink` -/

def hello (s : ForwardSink α) : Hello :=
  if s.version = 2 then { version := 2, token := s.apiKey, database := s.database }
  else
    { version := s.version
      token := s.apiKey
      database := s.database
      daemonId := s.daemonId
      devices := s.devices }

/-- The next `TcpStream::connect`. -/
def dial : Fwd α (Except SinkError Link) := do
  let s ← get
  set { s with dials := s.dials.tail }
  match s.dials.headD .timedOut with
  | .failed why => return .error (.failed ("forward: connect failed: " ++ why))
  | .timedOut => return .error (.failed "forward: timed out on connect")
  | .link l =>
    note .dialled
    return .ok l

/-- `handshake`: a new connection, and what the gateway said to its `HELLO`. -/
def handshake : Fwd α (Except SinkError (Link × HelloAck)) := do
  match ← dial with
  | .error e => return .error e
  | .ok l =>
    let h := hello (← get)
    match Protocol.encodeHello α h with
    | .error why => return .error (.failed ("forward: cannot send HELLO: " ++ why))
    | .ok () =>
      let (sent, l) ← l.send (.hello h)
      match sent with
      | .error e => return .error e
      | .ok () =>
        let (reply, l) ← l.recv
        match reply with
        | .error e => return .error e
        | .ok (.helloAck ack) => return .ok (l, ack)
        | .ok (.badHelloAck why) => return .error (.failed ("forward: " ++ why))
        | .ok _ => return .error (.failed "forward: no HELLO_ACK from gateway")

/-- `may_fall_back`: a gateway that predates catalogue assignment, where nothing needs v3. -/
def mayFallBack (s : ForwardSink α) (ack : HelloAck) : Bool :=
  ack.status = .badVersion && ack.acceptedVersion == 2 && s.version == 3 && !s.rawSerial

/-- The handshake of `connect`, a second time with v2 where the gateway has only that. -/
def agree : Fwd α (Except SinkError (Link × HelloAck)) := do
  match ← handshake with
  | .error e => return .error e
  | .ok (l, ack) =>
    if mayFallBack (← get) ack then
      modify fun s => { s with version := 2 }
      handshake
    else return .ok (l, ack)

/-- Why a `HELLO` was rejected, as the error says it. -/
def rejected (s : ForwardSink α) (ack : HelloAck) : SinkError :=
  let (status, why) := match ack.status with
    | .ok => ("ok", "")
    | .badVersion =>
      ("bad version", ": this server speaks protocol v" ++ toString s.version ++
        ", the gateway v" ++ toString ack.acceptedVersion ++ "; upgrade the gateway first")
    | .unavailable => ("unavailable", ": the gateway's database is not available yet")
    | .badDatabase =>
      ("bad database",
        if s.database = "" then ": this server names no database, and the gateway key is not " ++
          "pinned to a capture database; set [forward] database"
        else ": the gateway refused database " ++ s.database ++ ": not one of its capture " ++
          "databases, or missing while it does not create them")
    | .other status => (toString status, "")
  .failed ("forward: HELLO rejected (status=" ++ status ++ ")" ++ why)

/-- What `connect` does over v3 before the connection is kept. -/
def introduce (l : Link) (ack : HelloAck) : Fwd α (SinkResult × Link) := do
  if (← get).version ≠ 3 then return (.ok (), l)
  let l ← pull l ack.assignments
  match ← statusMessage with
  | none => return (.ok (), l)
  | some status => l.send (.catalogueStatus status)

/-- `connect`. -/
def connect : Fwd α SinkResult := do
  match ← agree with
  | .error e => return .error e
  | .ok (l, ack) =>
    if ack.status ≠ .ok then return .error (rejected (← get) ack)
    let (introduced, l) ← introduce l ack
    match introduced with
    | .error e => return .error e
    | .ok () =>
      setConn (some l)
      return .ok ()

/-- `connection()?` with a send on it. -/
def sendOn (m : Message α) : Fwd α SinkResult := do
  match (← get).conn with
  | none => return .error (.failed "forward: not connected")
  | some l =>
    let (sent, l) ← l.send m
    setConn (some l)
    return sent

/-- A receive on the connection just sent on. -/
def recvOn : Fwd α (Except SinkError Reply) := do
  match (← get).conn with
  | none => return .error (.failed "forward: not connected")
  | some l =>
    let (reply, l) ← l.recv
    setConn (some l)
    return reply

/-- `send_status_if_changed`. -/
def sendStatusIfChanged : Fwd α SinkResult := do
  otherSessions
  let s ← get
  if s.version = 2 || s.catalogues.changes == s.seen then return .ok ()
  match ← statusMessage with
  | none => return .ok ()
  | some status => sendOn (.catalogueStatus status)

/-- `quarantine`: keep a batch the gateway will never take, so the link can move past it. -/
def quarantine (chunk : List α) : Fwd α SinkResult := do
  let s ← get
  let s' := { s with quarantines := s.quarantines.tail }
  let notKept (why : String) : SinkResult :=
    .error (.failed ("forward: batch refused as malformed (seq=" ++ toString s.seq ++
      ") and not quarantined to " ++ s.deadLetter ++ ": " ++ why))
  match s.quarantines.headD (.opens false) with
  | .fails why =>
    set s'
    return notKept why
  | .opens appendFails =>
    -- The dead-letter file is a cache with no bound on its size.
    let opened := SqliteCache.opened s.dead (2 ^ 64 - 1) { append := [appendFails] }
    match opened.append chunk with
    | (.error e, _) =>
      set s'
      return notKept e.why
    | (.ok _, cache) =>
      set { s' with dead := cache.file.getD s.dead }
      note (.quarantined chunk)
      return .ok ()

/-- What `send_chunk` makes of the reply to a `BATCH` of `chunk`. -/
def answered (seq : UInt32) (chunk : List α) (reply : Reply) : Fwd α (Except SinkError Nat) := do
  match reply with
  | .ack ack =>
    -- A gateway that cannot read a batch's seq refuses it as seq 0.
    let unreadSeq := ack.seq == 0 && ack.status = .malformed
    if ack.seq ≠ seq && !unreadSeq then
      return .error (.failed ("forward: ACK for seq=" ++ toString ack.seq ++
        " while awaiting seq=" ++ toString seq))
    match ack.status with
    | .ok => return .ok chunk.length
    | .overloaded => return .error (.failed "forward: gateway overloaded")
    | .malformed =>
      match ← quarantine chunk with
      | .error e => return .error e
      | .ok () => return .ok chunk.length
    | .other status =>
      return .error (.failed ("forward: batch nacked (seq=" ++ toString ack.seq ++ " status=" ++
        toString status ++ ")"))
  | _ => return .error (.failed "forward: malformed ACK")

/-- `send_chunk`: send one `BATCH` of as many of `samples` from the front as fit one, wait for its
acknowledgement, and say how many it carried. -/
def sendChunk (samples : List α) : Fwd α (Except SinkError Nat) := do
  modify fun s => { s with seq := s.seq + 1 }
  let seq := (← get).seq
  let chunk := samples.take (Protocol.batchLen samples)
  match ← sendOn (.batch seq chunk) with
  | .error e => return .error e
  | .ok () =>
    match ← recvOn with
    | .error e => return .error e
    | .ok reply => answered seq chunk reply

/-- The loop of `write_batch`: `delivered` of the batch are behind it, `rest` to come. -/
def writeLoop : Nat → Nat → List α → Fwd α WriteResult
  | 0, _, _ => return .ok ()
  | fuel + 1, delivered, rest => do
    if rest.isEmpty then return .ok ()
    match ← sendChunk rest with
    | .error cause => return .error ⟨delivered, cause⟩
    | .ok n => writeLoop fuel (delivered + n) (rest.drop n)

/-- `write_batch`. -/
def ForwardSink.writeBatch (batch : List α) : Fwd α WriteResult := do
  match ← sendStatusIfChanged with
  | .error cause => return .error ⟨0, cause⟩
  | .ok () => writeLoop batch.length 0 batch

/-- `keep_alive`: an idle `PING`. -/
def ForwardSink.keepAlive : Fwd α SinkResult := do
  match ← sendStatusIfChanged with
  | .error e => return .error e
  | .ok () =>
    match ← sendOn .ping with
    | .error e => return .error e
    | .ok () =>
      match ← recvOn with
      | .error e => return .error e
      | .ok .pong => return .ok ()
      | .ok _ => return .error (.failed "forward: unexpected idle reply")

instance : BatchSink (ForwardSink α) α where
  connect := connect
  writeBatch := ForwardSink.writeBatch
  keepAlive := ForwardSink.keepAlive
  close := setConn none

end Sink

end WireTap
