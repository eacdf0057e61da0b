import Mathlib.Data.List.Forall2
import Mathlib.Data.UInt
import WireTap.Lib.Fallible
import WireTap.Cache.Rows
import WireTap.Wire.Reference
import WireTap.Cache.Equiv.Sqlite

/-!
# A cached frame is forwarded as the live one

* `record_stored`: reading back the row a sample was stored in gives a sample with the same record,
  but for the time, which has been through the `REAL` column.
* `run_forwards`: whatever was appended to a cache, in whatever batches and between whatever reads
  and removals, and also behind what a file the Python wrote holds, `oldest` succeeds and returns,
  in the order they were appended, samples that have the records of those appended.

What a data frame's row loses are flags its frame does not have (`canFrame_stored`): `CanFlags` is
taken of the frame the sample holds, so it is that frame a row reads back as.
-/

namespace WireTap

open Wire

/-! ### Columns -/

@[simp] theorem ok_bind {ε α β : Type} (a : α) (f : α → Except ε β) : (Except.ok a >>= f) = f a :=
  rfl

@[simp] theorem map_ok {ε α β : Type} (a : α) (f : α → β) :
    Except.map f (Except.ok a : Except ε α) = .ok (f a) :=
  rfl

namespace SqlValue

variable {ρ : Type}

@[simp] theorem getBool_ofBool (column : Nat) (b : Bool) :
    (ofBool b : SqlValue ρ).getBool column = .ok b := by
  cases b <;> rfl

@[simp] theorem getU8_ofU8 (column : Nat) (n : UInt8) :
    (ofU8 n : SqlValue ρ).getU8 column = .ok n := by
  have hlt : (n.toNat : Int) < 2 ^ 8 := by
    have h := n.toNat_lt
    omega
  unfold getU8 ofU8 getInt
  rw [ok_bind, if_pos ⟨Int.natCast_nonneg _, hlt⟩, Int.toNat_natCast, UInt8.ofNat_toNat]

@[simp] theorem getU32_ofU32 (column : Nat) (n : UInt32) :
    (ofU32 n : SqlValue ρ).getU32 column = .ok n := by
  have hlt : (n.toNat : Int) < 2 ^ 32 := by
    have h := n.toNat_lt
    omega
  unfold getU32 ofU32 getInt
  rw [ok_bind, if_pos ⟨Int.natCast_nonneg _, hlt⟩, Int.toNat_natCast, UInt32.ofNat_toNat]

@[simp] theorem getOption_ofU8 (column : Nat) (n : UInt8) :
    (ofU8 n : SqlValue ρ).getOption (·.getU8 column) = .ok (some n) := by
  change ((ofU8 n : SqlValue ρ).getU8 column).map some = _
  rw [getU8_ofU8]
  rfl

@[simp] theorem getOption_ofBool (column : Nat) (b : Bool) :
    (ofBool b : SqlValue ρ).getOption (·.getBool column) = .ok (some b) := by
  change ((ofBool b : SqlValue ρ).getBool column).map some = _
  rw [getBool_ofBool]
  rfl

end SqlValue

@[simp] theorem Direction.fromStr_asStr (d : Direction) : Direction.fromStr d.asStr = some d := by
  cases d <;> decide

/-! ### A row -/

section Row

variable {φ κ ρ : Type} {can : CanLib φ} {protocol : ProtocolLib φ κ} {secs : Secs ρ}

/-- What a row reads back as. -/
def stored (can : CanLib φ) (secs : Secs ρ) : Sample → Sample
  | .can c =>
    .can { c with
      tsUs := secs.fromSecs (secs.toSecs c.tsUs)
      rtr := c.rtr.map fun _ => can.dlc (canFrame can c)
      brs := can.brs (canFrame can c) }
  | .modbus m => .modbus { m with tsUs := secs.fromSecs (secs.toSecs m.tsUs) }
  | .serial r => .serial { r with tsUs := secs.fromSecs (secs.toSecs r.tsUs) }

theorem rtr_canFrame (hcan : can.Lawful) (c : CanSample) :
    can.rtr (canFrame can c) = c.rtr.isSome := by
  unfold canFrame
  rw [hcan.rtr_setEsi]
  cases c.rtr with
  | none => exact hcan.rtr_data ..
  | some dlc => exact hcan.rtr_remote ..

theorem esi_canFrame (hcan : can.Lawful) (c : CanSample) : can.esi (canFrame can c) = c.esi :=
  hcan.esi_setEsi ..

theorem readRow_rowOf (hcan : can.Lawful) (hprotocol : protocol.Lawful can) (s : Sample) :
    readRow can protocol secs (rowOf can protocol secs s) = .ok (stored can secs s) := by
  cases s with
  | can c =>
    -- `dlc` is read exactly for a remote frame.
    cases hrtr : c.rtr <;>
      simp [readRow, rowOf, stored, Row.direction, SqlValue.getReal, SqlValue.getBlob,
        SqlValue.asStr, Sample.protocol, hprotocol.parse_asStr, hcan.hasRtr_flagsOf,
        hcan.hasBrs_flagsOf, hcan.hasEsi_flagsOf, rtr_canFrame hcan, esi_canFrame hcan, hrtr]
  | modbus m =>
    simp [readRow, rowOf, stored, SqlValue.getReal, SqlValue.getBlob, SqlValue.asStr,
      Sample.protocol, hprotocol.parse_asStr, hprotocol.unitFunc_modbusId]
  | serial r =>
    simp [readRow, rowOf, stored, SqlValue.getReal, SqlValue.getBlob, SqlValue.asStr,
      Sample.protocol, hprotocol.parse_asStr]

/-- The sample read back holds the frame that was stored. -/
theorem canFrame_stored (hcan : can.Lawful) (c : CanSample) (tsUs : Int) :
    canFrame can { c with
      tsUs
      rtr := c.rtr.map fun _ => can.dlc (canFrame can c)
      brs := can.brs (canFrame can c) } = canFrame can c := by
  unfold canFrame
  dsimp only
  cases c.rtr with
  | none =>
    dsimp only [Option.map_none]
    rw [hcan.brs_setEsi, hcan.data_brs]
  | some dlc =>
    dsimp only [Option.map_some]
    rw [hcan.dlc_setEsi, hcan.remote_dlc]

/-- A sample read back has the record of the one stored, but for the time. -/
theorem record_stored (hcan : can.Lawful) (s : Sample) :
    record can protocol (stored can secs s) =
      { record can protocol s with tsUs := (secs.fromSecs (secs.toSecs s.tsUs)).toNat } := by
  cases s with
  | can c =>
    have hframe := canFrame_stored hcan c (secs.fromSecs (secs.toSecs c.tsUs))
    simp only [stored, record, parts, Sample.tsUs, Sample.bus, hframe]
  | modbus m => rfl
  | serial r => rfl

theorem record_stored_of_exact (hcan : can.Lawful) {s : Sample}
    (hexact : secs.fromSecs (secs.toSecs s.tsUs) = s.tsUs) :
    record can protocol (stored can secs s) = record can protocol s := by
  rw [record_stored hcan, hexact]
  rfl

/-- The row stands for the sample: it can be read, and what it reads as has the sample's record. -/
def Stands (can : CanLib φ) (protocol : ProtocolLib φ κ) (secs : Secs ρ) (r : Cached (Row ρ))
    (s : Sample) : Prop :=
  ∃ s', readRow can protocol secs r.sample = .ok s' ∧ record can protocol s' = record can protocol s

theorem stands_rowOf (hcan : can.Lawful) (hprotocol : protocol.Lawful can) {s : Sample} {id : Nat}
    (hexact : secs.fromSecs (secs.toSecs s.tsUs) = s.tsUs) :
    Stands can protocol secs ⟨id, rowOf can protocol secs s⟩ s :=
  ⟨_, readRow_rowOf hcan hprotocol s, record_stored_of_exact hcan hexact⟩

/-- What a row the Python wrote stands for: a data frame without flags. -/
def PythonRow.frame (secs : Secs ρ) (p : PythonRow ρ) : Sample :=
  .can {
    tsUs := secs.fromSecs p.ts
    arbId := p.arbId
    extended := p.extended
    isFd := p.isFd
    rtr := none
    brs := false
    esi := false
    data := p.data
    bus := p.bus
    dir := (Direction.fromStr p.dir).getD .rx }

theorem stands_widen (hcan : can.Lawful) (hprotocol : protocol.Lawful can) (p : PythonRow ρ)
    {id : Nat} : Stands can protocol secs ⟨id, p.widen⟩ (p.frame secs) := by
  have hparse : protocol.parse "can" = some .can := by
    rw [← hprotocol.asStr_can, hprotocol.parse_asStr]
  refine ⟨p.frame secs, ?_, rfl⟩
  simp [readRow, PythonRow.widen, PythonRow.frame, Row.direction, SqlValue.getReal,
    SqlValue.getBlob, SqlValue.getOption, SqlValue.asStr, hparse, hcan.hasRtr_zero,
    hcan.hasBrs_zero, hcan.hasEsi_zero]

/-- Two lists with the same image are related by whatever relates elements with the same image. -/
theorem forall₂_of_map_eq {α β γ : Type} {R : α → β → Prop} {f : α → γ} {g : β → γ} {xs : List α}
    {ys : List β} (h : xs.map f = ys.map g) (hR : ∀ x, ∀ y ∈ ys, f x = g y → R x y) :
    List.Forall₂ R xs ys := by
  induction ys generalizing xs with
  | nil =>
    obtain rfl := List.map_eq_nil_iff.mp h
    exact .nil
  | cons y ys ih =>
    obtain ⟨x, xs, rfl, hx, hxs⟩ := List.map_eq_cons_iff.mp h
    exact .cons (hR x y List.mem_cons_self hx) (ih hxs fun x y hy => hR x y (.tail _ hy))

/-- Rows that stand for samples are read as one. -/
theorem mapM_readCached {rows : List (Cached (Row ρ))} {samples : List Sample}
    (h : List.Forall₂ (Stands can protocol secs) rows samples) :
    ∃ out, rows.mapM (readCached can protocol secs) = .ok out ∧
      out.map (fun c => record can protocol c.sample) = samples.map (record can protocol) := by
  induction h with
  | nil => exact ⟨[], rfl, rfl⟩
  | @cons r _ _ _ hrow _ ih =>
    obtain ⟨s', hread, hrecord⟩ := hrow
    obtain ⟨out, hout, hrecords⟩ := ih
    refine ⟨⟨r.id, s'⟩ :: out, ?_, ?_⟩
    · rw [List.mapM_cons, hout, readCached, hread]
      rfl
    · rw [List.map_cons, List.map_cons, hrecord, hrecords]

/-- A row is read the same way, with and without the reason why it cannot be. -/
theorem toOption_readCached (r : Cached (Row ρ)) :
    (readCached can protocol secs r).toOption =
      RowCache.readRow (sampleRows can protocol secs) r := by
  unfold readCached RowCache.readRow sampleRows
  dsimp only
  cases readRow can protocol secs r.sample with
  | error e => rfl
  | ok sample => rfl

/-- `oldest` of the cache over these rows reads what `oldestSamples` does. -/
theorem oldest_sampleRows (c : SqliteCache (Row ρ)) (limit : Nat) (out : List (Cached Sample)) :
    ((⟨c⟩ : RowCache (sampleRows can protocol secs)).oldest limit).1 = .ok out ↔
      (c.oldestSamples can protocol secs limit).1 = .ok out := by
  unfold RowCache.oldest SqliteCache.oldestSamples
  cases c.oldest limit with
  | mk r file =>
    cases r with
    | error e => simp
    | ok rows =>
      dsimp only
      rw [← funext toOption_readCached, ← toOption_mapM]
      cases rows.mapM (readCached can protocol secs) with
      | error e => simp [Except.toOption]
      | ok frames => simp [Except.toOption]

end Row

/-! ### Runs -/

/-- An operation on the cache. -/
inductive CacheOp where
  | append (frames : List Sample)
  | oldest (limit : Nat)
  /-- `remove`, of the first `k` frames `oldest` returned. -/
  | remove (k : Nat)
  deriving DecidableEq

/-- The samples the operation stores. -/
def CacheOp.frames : CacheOp → List Sample
  | append frames => frames
  | _ => []

/-- A cache, and the queue of samples it is for. -/
structure Waiting (ρ : Type) where
  cache : SqliteCache (Row ρ)
  queue : List Sample

namespace Waiting

variable {φ κ ρ : Type} (can : CanLib φ) (protocol : ProtocolLib φ κ) (secs : Secs ρ)

/-- A file with these rows of the Python's in it, or a fresh one, is opened. -/
def opened (t : Table (Row ρ)) (maxBytes : Nat) (host : Host) (python : List (PythonRow ρ)) :
    Waiting ρ :=
  ⟨.opened t maxBytes host, python.map (PythonRow.frame secs)⟩

/-- The operation on the cache and, where it succeeds, on the queue. -/
def step (w : Waiting ρ) : CacheOp → Waiting ρ
  | .append frames =>
    match w.cache.appendSamples can protocol secs frames with
    | (.ok _, cache) => ⟨cache, w.queue ++ frames⟩
    | (.error _, cache) => ⟨cache, w.queue⟩
  | .oldest limit => ⟨(w.cache.oldestSamples can protocol secs limit).2, w.queue⟩
  | .remove k =>
    match w.cache.remove (w.cache.held.take k) with
    | (.ok _, cache) => ⟨cache, w.queue.drop k⟩
    | (.error _, cache) => ⟨cache, w.queue⟩

variable {can protocol secs}

section Table

variable {α : Type} {c : SqliteCache α}

theorem table_append (xs : List α) (h : c.table.isSome = true) :
    (c.append xs).2.table.isSome = true := by
  obtain ⟨t, ht⟩ := Option.isSome_iff_exists.mp h
  unfold SqliteCache.append
  rw [ht]
  split
  · exact h
  · dsimp only
    split
    · exact h
    · unfold SqliteCache.table
      rw [SqliteCache.conn_of_table ht]
      rfl

theorem table_oldest {limit : Nat} : (c.oldest limit).2.table = c.table := by
  unfold SqliteCache.oldest
  dsimp only
  split
  · rfl
  · split <;> rfl

theorem table_remove (frames : List (Cached α)) (h : c.table.isSome = true) :
    (c.remove frames).2.table.isSome = true := by
  obtain ⟨t, ht⟩ := Option.isSome_iff_exists.mp h
  unfold SqliteCache.remove
  rw [ht]
  split
  · exact h
  · split
    · exact h
    · dsimp only
      split
      · exact h
      · unfold SqliteCache.table
        rw [SqliteCache.conn_of_table ht]
        rfl

/-- With deletes that do not fail, only a batch too large is not removed, and then nothing is. -/
theorem remove_error {frames : List (Cached α)} {e : CacheError} (hs : c.Sound)
    (h : c.table.isSome = true) (hremove : (c.remove frames).1 = .error e) :
    (c.remove frames).2 = c := by
  obtain ⟨t, ht⟩ := Option.isSome_iff_exists.mp h
  unfold SqliteCache.remove at hremove ⊢
  rw [ht, hs.deletes] at hremove
  rw [ht, hs.deletes]
  split
  · rfl
  · rename_i hne
    rw [if_neg hne] at hremove
    split
    · rfl
    · rename_i hfew
      rw [if_neg hfew] at hremove
      cases hremove

end Table

/-- The cache's rows stand for the samples in the queue, one by one. -/
structure Mirrors (can : CanLib φ) (protocol : ProtocolLib φ κ) (secs : Secs ρ) (w : Waiting ρ) :
    Prop where
  sound : w.cache.Sound
  table : w.cache.table.isSome = true
  rows : List.Forall₂ (Stands can protocol secs) w.cache.held w.queue

theorem opened_mirrors (hcan : can.Lawful) (hprotocol : protocol.Lawful can) {t : Table (Row ρ)}
    {maxBytes : Nat} {host : Host} {python : List (PythonRow ρ)}
    (ht : t.rows.map Cached.sample = python.map PythonRow.widen) (hreads : host.oldest = [])
    (hdeletes : host.remove = []) :
    Mirrors can protocol secs (opened secs t maxBytes host python) where
  sound := SqliteCache.opened_sound t maxBytes hreads hdeletes
  table := rfl
  rows := by
    refine List.forall₂_map_right_iff.mpr (forall₂_of_map_eq ht ?_)
    intro r p _ hr
    obtain ⟨id, sample⟩ := r
    obtain rfl : sample = p.widen := hr
    exact stands_widen hcan hprotocol p

theorem append_mirrors (hcan : can.Lawful) (hprotocol : protocol.Lawful can) {w : Waiting ρ}
    {frames : List Sample} (hexact : ∀ s ∈ frames, secs.fromSecs (secs.toSecs s.tsUs) = s.tsUs)
    (h : Mirrors can protocol secs w) :
    Mirrors can protocol secs (w.step can protocol secs (.append frames)) := by
  obtain ⟨hsound, hres⟩ := w.cache.append_spec (frames.map (rowOf can protocol secs)) h.sound
  have htable := table_append (frames.map (rowOf can protocol secs)) h.table
  rcases hrun : w.cache.append (frames.map (rowOf can protocol secs)) with ⟨_ | n, cache⟩
  -- An append that fails stores none of the frames.
  · rw [hrun] at hsound hres htable
    simp only [step, SqliteCache.appendSamples, hrun]
    exact ⟨hsound, htable, by rw [hres]; exact h.rows⟩
  · rw [hrun] at hsound hres htable
    obtain ⟨-, new, hnew, hheld⟩ := hres
    simp only [step, SqliteCache.appendSamples, hrun]
    refine ⟨hsound, htable, ?_⟩
    rw [hheld]
    refine List.rel_append h.rows (forall₂_of_map_eq hnew ?_)
    rintro ⟨id, _⟩ s hs rfl
    exact stands_rowOf hcan hprotocol (hexact s hs)

theorem oldest_mirrors {w : Waiting ρ} {limit : Nat} (h : Mirrors can protocol secs w) :
    Mirrors can protocol secs (w.step can protocol secs (.oldest limit)) := by
  obtain ⟨hsound, hheld, -⟩ := w.cache.oldest_spec limit h.sound
  have hcache : (w.cache.oldestSamples can protocol secs limit).2 = (w.cache.oldest limit).2 := by
    unfold SqliteCache.oldestSamples
    split
    · rename_i hrun
      rw [hrun]
    · rename_i hrun
      rw [hrun]
  simp only [step, hcache]
  exact ⟨hsound, by rw [table_oldest]; exact h.table, by rw [hheld]; exact h.rows⟩

theorem remove_mirrors {w : Waiting ρ} {k : Nat} (h : Mirrors can protocol secs w) :
    Mirrors can protocol secs (w.step can protocol secs (.remove k)) := by
  have htable := table_remove (w.cache.held.take k) h.table
  have hok := (w.cache.remove_take_spec k h.sound).1
  rcases hrun : w.cache.remove (w.cache.held.take k) with ⟨e | n, cache⟩
  · have hsame : cache = w.cache := by
      have heq := remove_error h.sound h.table (congrArg Prod.fst hrun)
      rw [hrun] at heq
      exact heq
    simp only [step, hrun, hsame]
    exact h
  · rw [hrun] at htable hok
    obtain ⟨hsound, hheld⟩ := hok rfl
    simp only [step, hrun]
    exact ⟨hsound, htable, by rw [hheld]; exact List.forall₂_drop k h.rows⟩

theorem step_mirrors (hcan : can.Lawful) (hprotocol : protocol.Lawful can) {w : Waiting ρ}
    {op : CacheOp} (hexact : ∀ s ∈ op.frames, secs.fromSecs (secs.toSecs s.tsUs) = s.tsUs)
    (h : Mirrors can protocol secs w) :
    Mirrors can protocol secs (w.step can protocol secs op) := by
  cases op with
  | append frames => exact append_mirrors hcan hprotocol hexact h
  | oldest limit => exact oldest_mirrors h
  | remove k => exact remove_mirrors h

/-- What `oldest` returns of a cache that mirrors the queue. -/
theorem Mirrors.oldest {w : Waiting ρ} (h : Mirrors can protocol secs w) (limit : Nat) :
    ∃ out, (w.cache.oldestSamples can protocol secs limit).1 = .ok out ∧
      out.map (fun c => record can protocol c.sample) =
        (w.queue.take limit).map (record can protocol) := by
  obtain ⟨t, ht⟩ := Option.isSome_iff_exists.mp h.table
  obtain ⟨-, -, hres⟩ := w.cache.oldest_spec limit h.sound
  rw [ht] at hres
  obtain ⟨out, hout, hrecords⟩ := mapM_readCached (List.forall₂_take limit h.rows)
  refine ⟨out, ?_, hrecords⟩
  unfold SqliteCache.oldestSamples
  split
  -- The table is there, so the read cannot fail.
  · rename_i hrun
    rw [hrun] at hres
    cases hres
  · rename_i hrun
    rw [hrun] at hres
    obtain rfl := Except.ok.inj hres
    exact hout

/-- Whatever is appended and removed, `oldest` returns the frames that wait, in the order they came,
each with the record it would have been forwarded with live. -/
theorem run_forwards (hcan : can.Lawful) (hprotocol : protocol.Lawful can) {t : Table (Row ρ)}
    {maxBytes : Nat} {host : Host} {python : List (PythonRow ρ)}
    (ht : t.rows.map Cached.sample = python.map PythonRow.widen) (hreads : host.oldest = [])
    (hdeletes : host.remove = []) {ops : List CacheOp}
    (hexact : ∀ op ∈ ops, ∀ s ∈ op.frames, secs.fromSecs (secs.toSecs s.tsUs) = s.tsUs)
    (limit : Nat) :
    let w := ops.foldl (step can protocol secs) (opened secs t maxBytes host python)
    ∃ out, (w.cache.oldestSamples can protocol secs limit).1 = .ok out ∧
      out.map (fun c => record can protocol c.sample) =
        (w.queue.take limit).map (record can protocol) := by
  -- By induction on the calls: each leaves the table in step with the queue.
  have hrun : ∀ w, Mirrors can protocol secs w →
      Mirrors can protocol secs (ops.foldl (step can protocol secs) w) := by
    induction ops with
    | nil => exact fun _ h => h
    | cons op ops ih =>
      intro w h
      have hop := step_mirrors hcan hprotocol (hexact op List.mem_cons_self) h
      exact ih (fun op' hop' => hexact op' (.tail _ hop')) _ hop
  exact (hrun _ (opened_mirrors hcan hprotocol ht hreads hdeletes)).oldest limit

open Reference (canLib protocolLib canLib_lawful protocolLib_lawful)

/-- Seconds without rounding. -/
def exactSecs : Secs Rat where
  toSecs tsUs := (tsUs : Rat) / 1000000
  fromSecs ts := (ts * 1000000 + 1 / 2).floor

/-- A frame of the Python's cache. -/
def pythonFrame : PythonRow Rat where
  ts := 1700000000
  extended := true
  isFd := true
  arbId := 0x18DAF110
  dlc := 9
  data := List.replicate 12 0xAA
  bus := 7
  dir := "TX"

/-- A remote frame that has FD bits. -/
def remoteFrame : Sample :=
  .can ⟨1700000000000001, 0x7DF, false, true, some 8, true, true, [], 1, .rx⟩

/-- A classic frame with ESI. -/
def classicFrame : Sample :=
  .can ⟨1700000000000002, 0x123, false, false, none, false, true, [1, 2, 3], 0, .tx⟩

def modbusMessage : Sample :=
  .modbus ⟨1700000000000003, 2, 1, 0x20, true, [0x01, 0x20, 0xE4, 0xCA]⟩

def serialChunk : Sample := .serial ⟨1700000000999999, 3, 2 ^ 31 - 1, [0x55]⟩

def drill : List CacheOp :=
  [.append [remoteFrame, classicFrame], .oldest 1, .append [modbusMessage], .remove 1,
    .append [serialChunk]]

/-- Behind a frame of the Python's, in three batches, with the first frame gone. -/
theorem run_forwards_drill :
    let w := drill.foldl (step canLib protocolLib exactSecs)
      (opened exactSecs (Table.empty.insert [pythonFrame.widen]) 0 {} [pythonFrame])
    w.queue = [remoteFrame, classicFrame, modbusMessage, serialChunk] ∧
      ∃ out, (w.cache.oldestSamples canLib protocolLib exactSecs 10).1 = .ok out ∧
        out.map (fun c => record canLib protocolLib c.sample) =
          (w.queue.take 10).map (record canLib protocolLib) :=
  ⟨rfl, run_forwards canLib_lawful protocolLib_lawful rfl rfl rfl (by decide +kernel) 10⟩

end Waiting

end WireTap
