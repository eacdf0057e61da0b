import Mathlib
import WireTap.Gateway.WtarReader
import WireTap.Lib.Gzip

/-!
# The reader accepts exactly its format

Whatever a reader has done so far, `Reader.future` is what its sections will be taken from: what is
decoded and waiting, and what the rest of the upload decompresses to; nothing where the rest would
be refused.  No call changes it but by taking bytes off its front (`fill_ok`, `take_ok`,
`section_ok`), and a call that asks for what is there succeeds (`take_some`, `section_some`).  A new
reader's future depends only on the bytes of the upload (`future_new`), and a load that ends well has
used it up, so the chunks the upload came in never matter.
-/

namespace WireTap.Gateway.Wtar

open Wire Lib

/-! ### Lengths -/

theorem length_toBeBytes (n : UInt32) : (toBeBytes n).length = 4 := rfl

theorem fromBeBytes_toBeBytes (n : UInt32) : fromBeBytes (toBeBytes n) = n := by
  have hn := n.toNat_lt
  apply UInt32.toNat_inj.mp
  simp only [fromBeBytes, toBeBytes, List.foldl_cons, List.foldl_nil, UInt8.toNat_ofNat',
    UInt32.toNat_ofNat']
  omega

theorem toBeBytes_fromBeBytes {bytes : Bytes} (h : bytes.length = 4) :
    toBeBytes (fromBeBytes bytes) = bytes := by
  obtain ⟨a, b, c, d, rfl⟩ : ∃ a b c d, bytes = [a, b, c, d] := by
    match bytes, h with
    | [a, b, c, d], _ => exact ⟨a, b, c, d, rfl⟩
  have ha := a.toNat_lt
  have hb := b.toNat_lt
  have hc := c.toNat_lt
  have hd := d.toNat_lt
  simp only [fromBeBytes, toBeBytes, List.foldl_cons, List.foldl_nil, UInt32.toNat_ofNat',
    List.cons.injEq, and_true]
  refine ⟨?_, ?_, ?_, ?_⟩ <;>
  · apply UInt8.toNat_inj.mp
    rw [UInt8.toNat_ofNat']
    omega

/-! ### Decompressing -/

section Reader

variable {σ : Type} {gz : GzDecoder σ}

/-- What the decoder gives for the pieces still to come, where it takes them all. -/
def GzDecoder.inflateFrom (gz : GzDecoder σ) (state : σ) : List Bytes → Option Bytes
  | [] => match gz.tryFinish state with
    | .ok (_, out) => some out
    | .error _ => none
  | piece :: pieces => match gz.writeAll state piece with
    | .ok (next, out) => (gz.inflateFrom next pieces).map (out ++ ·)
    | .error _ => none

/-- The content of a gzip stream, written to the decoder in these pieces. -/
def GzDecoder.inflate (gz : GzDecoder σ) (pieces : List Bytes) : Option Bytes :=
  gz.inflateFrom gz.new pieces

/-- The decoder's verdict and output depend only on the concatenated bytes. -/
def GzDecoder.Lawful (gz : GzDecoder σ) : Prop :=
  ∀ ps qs : List Bytes, ps.flatten = qs.flatten → gz.inflate ps = gz.inflate qs

/-- The pieces `fill` cuts a chunk into. -/
def pieces (bytes : Bytes) : List Bytes :=
  if bytes = [] then [] else bytes.take inflateAt :: pieces (bytes.drop inflateAt)
termination_by bytes.length
decreasing_by
  have hpos : 0 < bytes.length := List.length_pos_iff.mpr ‹_›
  have hat : 0 < inflateAt := by decide
  rw [List.length_drop]
  omega

theorem flatten_pieces (bytes : Bytes) : (pieces bytes).flatten = bytes := by
  induction bytes using pieces.induct with
  | case1 => simp [pieces]
  | case2 bytes h ih => rw [pieces, if_neg h, List.flatten_cons, ih, List.take_append_drop]

/-- The pieces the rest of the upload will be written in, after what has come of the header. -/
def upcoming (header : Bytes) : List (Except String Bytes) → Option (List Bytes)
  | [] => if header.length < magic.length + 1 then none else some []
  | .error _ :: _ => none
  | .ok bytes :: body =>
    let wanted := magic.length + 1 - header.length
    if 0 < wanted then
      match checkHeader (header ++ bytes.take wanted) with
      | .error _ => none
      | .ok () => (upcoming (header ++ bytes.take wanted) body).map (pieces (bytes.drop wanted) ++ ·)
    else (upcoming header body).map (pieces bytes ++ ·)

/-- What will be decoded after what is. -/
def Reader.rest (gz : GzDecoder σ) (r : Reader σ) : Option Bytes :=
  if r.ended then some r.out
  else (upcoming r.header r.body).bind fun ps =>
    (gz.inflateFrom r.decoder (pieces r.received ++ ps)).map (r.out ++ ·)

/-- What the sections of a reader will be taken from, to the end of the upload. -/
def Reader.future (gz : GzDecoder σ) (r : Reader σ) : Option Bytes :=
  (r.rest gz).map (r.decoded ++ ·)

/-! ### One call -/

/-- A call that leaves what is still to be decoded as it was, or is refused because nothing is. -/
def Keeps (gz : GzDecoder σ) (r : Reader σ) : Except ImportError (Reader σ) → Prop
  | .ok r' => r'.rest gz = r.rest gz ∧ r'.decoded = r.decoded
  | .error _ => r.rest gz = none

theorem pieces_nil : pieces [] = [] := by rw [pieces, if_pos rfl]

theorem receive_keeps {r : Reader σ} (hreceived : r.received = []) (hended : r.ended = false) :
    Keeps gz r (r.receive gz) := by
  unfold Reader.receive
  split
  · rename_i hbody
    simp [Keeps, Reader.rest, hended, hbody, upcoming]
  · rename_i hbody
    split
    · rename_i hshort
      simp [Keeps, Reader.rest, hended, hbody, upcoming, hshort]
    · rename_i hlong
      -- The end of the upload: what is left in the decoder is all there will be.
      split <;> rename_i hfinish <;>
        simp [Keeps, Reader.rest, hended, hbody, upcoming, hlong, hreceived, pieces_nil,
          GzDecoder.inflateFrom, hfinish]
  · rename_i bytes body hbody
    dsimp only
    split
    · rename_i hwanted
      split <;> rename_i hcheck <;>
        simp [Keeps, Reader.rest, hended, hbody, upcoming, hwanted, hcheck, hreceived, pieces_nil,
          Option.bind_map]
    · rename_i hwanted
      simp [Keeps, Reader.rest, hended, hbody, upcoming, hwanted, hreceived, pieces_nil,
        Option.bind_map]

theorem inflate_keeps {r : Reader σ} (hreceived : r.received ≠ []) (hended : r.ended = false) :
    Keeps gz r (r.inflate gz) := by
  have hpieces : pieces r.received =
      r.received.take inflateAt :: pieces (r.received.drop inflateAt) := by
    rw [pieces, if_neg hreceived]
  unfold Reader.inflate
  split <;> rename_i hwrite
  · simp [Keeps, Reader.rest, hended, hpieces, GzDecoder.inflateFrom, hwrite]
  · simp [Keeps, Reader.rest, hended, hpieces, GzDecoder.inflateFrom, hwrite, Function.comp_def]

theorem advance_keeps {r : Reader σ} (hended : r.ended = false) : Keeps gz r (r.advance gz) := by
  unfold Reader.advance
  split
  · rename_i hreceived
    exact receive_keeps (by simpa using hreceived) hended
  · rename_i hreceived
    exact inflate_keeps (by simpa using hreceived) hended

theorem future_takeDecoded (r : Reader σ) : r.takeDecoded.2.future gz = r.future gz := by
  by_cases hended : r.ended
  · simp [Reader.future, Reader.rest, Reader.takeDecoded, hended]
  · simp [Reader.future, Reader.rest, Reader.takeDecoded, hended, Option.map_bind,
      Function.comp_def]

/-- `fill` changes nothing of what is to come; at the end of the upload there is nothing to come. -/
theorem fill_ok {r r' : Reader σ} {more : Bool} (hout : r.out = [])
    (h : r.fill gz = .ok (more, r')) :
    r'.out = [] ∧ r'.future gz = r.future gz ∧
      (more = false → r'.decoded = r.decoded ∧ r.future gz = some r.decoded) ∧
      (more = true → r'.decoded ≠ []) := by
  induction r using Reader.fill_induct gz with
  | h r ih =>
    rw [Reader.fill_eq] at h
    split at h
    · rename_i hended
      obtain ⟨rfl, rfl⟩ := Prod.mk.inj (Except.ok.inj h)
      refine ⟨hout, rfl, fun _ => ⟨rfl, ?_⟩, fun htrue => absurd htrue (by decide)⟩
      simp [Reader.future, Reader.rest, hended, hout]
    · rename_i hended
      have hended : r.ended = false := by simpa using hended
      have hkeeps : Keeps gz r (r.advance gz) := advance_keeps hended
      cases hadvance : r.advance gz with
      | error e =>
        rw [hadvance] at h
        cases h
      | ok next =>
        rw [hadvance] at h hkeeps
        have hfuture : next.takeDecoded.2.future gz = r.future gz := by
          rw [future_takeDecoded, Reader.future, Reader.future, hkeeps.1, hkeeps.2]
        simp only [Except.bind] at h
        split at h
        · rename_i hany
          obtain ⟨rfl, rfl⟩ := Prod.mk.inj (Except.ok.inj h)
          refine ⟨rfl, hfuture, fun hfalse => absurd hfalse (by decide), ?_⟩
          intro _ hnil
          have hsome : next.out ≠ [] := by simpa [Reader.takeDecoded] using hany
          exact hsome (List.append_eq_nil_iff.mp hnil).2
        · rename_i hany
          -- Nothing was decoded, so that the next round starts from the same bytes.
          have hnone : next.out = [] := by simpa [Reader.takeDecoded] using hany
          have hdecoded : next.takeDecoded.2.decoded = r.decoded := by
            rw [← hkeeps.2]
            simp [Reader.takeDecoded, hnone]
          obtain ⟨hout', hfuture', hend, hmore⟩ := ih next hended hadvance rfl h
          rw [hfuture, hdecoded] at hend
          exact ⟨hout', hfuture'.trans hfuture, hend, hmore⟩

theorem fill_error {r : Reader σ} {e : ImportError} (h : r.fill gz = .error e) :
    r.future gz = none := by
  induction r using Reader.fill_induct gz with
  | h r ih =>
    rw [Reader.fill_eq] at h
    split at h
    · cases h
    · rename_i hended
      have hended : r.ended = false := by simpa using hended
      have hkeeps : Keeps gz r (r.advance gz) := advance_keeps hended
      cases hadvance : r.advance gz with
      | error e =>
        rw [hadvance] at hkeeps
        rw [Reader.future, show r.rest gz = none from hkeeps, Option.map_none]
      | ok next =>
        rw [hadvance] at h hkeeps
        simp only [Except.bind] at h
        split at h
        · cases h
        · have hfuture := ih next hended hadvance h
          rwa [future_takeDecoded, Reader.future, hkeeps.1, hkeeps.2] at hfuture

/-! ### Bytes taken off the front -/

theorem take_ok {r r' : Reader σ} {n : Nat} {bytes : Bytes} (hout : r.out = [])
    (h : r.take gz n = .ok (bytes, r')) :
    r'.out = [] ∧ bytes.length = n ∧ r.future gz = (r'.future gz).map (bytes ++ ·) := by
  induction hn : r.left using Nat.strongRecOn generalizing r with
  | ind left ih =>
    rw [Reader.take] at h
    split at h
    · rename_i hle
      obtain ⟨rfl, rfl⟩ := Prod.mk.inj (Except.ok.inj h)
      refine ⟨hout, by rw [List.length_take, Nat.min_eq_left hle], ?_⟩
      show (r.rest gz).map _ = ((r.rest gz).map (r.decoded.drop n ++ ·)).map _
      rw [Option.map_map]
      congr 1
      funext rest
      show r.decoded ++ rest = r.decoded.take n ++ (r.decoded.drop n ++ rest)
      rw [← List.append_assoc, List.take_append_drop]
    · split at h
      · cases h
      · cases h
      · rename_i next hfill
        obtain ⟨hout', hfuture, -, -⟩ := fill_ok hout hfill
        have hleft := Reader.fill_left gz hfill
        have hnext := ih next.left (hn ▸ hleft) hout' h rfl
        rwa [hfuture] at hnext

theorem take_some {r : Reader σ} {n : Nat} {content : Bytes} (hout : r.out = [])
    (hfuture : r.future gz = some content) (hn : n ≤ content.length) :
    ∃ r', r.take gz n = .ok (content.take n, r') ∧ r'.out = [] ∧
      r'.future gz = some (content.drop n) := by
  -- It is enough that the call succeeds: `take_ok` says with what.
  suffices hok : ∃ bytes r', r.take gz n = .ok (bytes, r') by
    obtain ⟨bytes, r', h⟩ := hok
    obtain ⟨hout', hlength, hsplit⟩ := take_ok hout h
    rw [hfuture] at hsplit
    obtain ⟨rest, hrest, hcontent⟩ := Option.map_eq_some_iff.mp hsplit.symm
    subst hcontent
    rw [h, List.take_left' hlength, List.drop_left' hlength]
    exact ⟨r', rfl, hout', hrest⟩
  induction hleft : r.left using Nat.strongRecOn generalizing r with
  | ind left ih =>
    rw [Reader.take]
    split
    · exact ⟨_, _, rfl⟩
    · rename_i hshort
      split
      · rename_i hfill
        rw [fill_error hfill] at hfuture
        cases hfuture
      · rename_i hfill
        -- The upload ended, with too little decoded: but then there is too little to come.
        obtain ⟨-, -, hend, -⟩ := fill_ok hout hfill
        rw [(hend rfl).2] at hfuture
        obtain rfl := Option.some.inj hfuture
        exact absurd hn hshort
      · rename_i next hfill
        obtain ⟨hout', hsame, -, -⟩ := fill_ok hout hfill
        exact ih next.left (hleft ▸ Reader.fill_left gz hfill) hout' (hsame.trans hfuture) rfl

theorem section_ok {r r' : Reader σ} {max : Nat} {bytes : Bytes} (hout : r.out = [])
    (h : r.section gz max = .ok (bytes, r')) :
    r'.out = [] ∧ bytes.length ≤ max ∧
      r.future gz = (r'.future gz).map (sectionBytes bytes ++ ·) := by
  simp only [Reader.section, bind, Except.bind] at h
  split at h
  · cases h
  · rename_i head hhead
    obtain ⟨hout₁, hlen, hfuture₁⟩ := take_ok hout hhead
    split at h
    · cases h
    · rename_i hmax
      obtain ⟨hout₂, hbytes, hfuture₂⟩ := take_ok hout₁ h
      refine ⟨hout₂, by omega, ?_⟩
      have hsection : sectionBytes bytes = head.1 ++ bytes := by
        rw [sectionBytes, hbytes, UInt32.ofNat_toNat, toBeBytes_fromBeBytes hlen]
      rw [hfuture₁, hfuture₂, Option.map_map, hsection]
      congr 1
      funext rest
      exact (List.append_assoc _ _ _).symm

theorem section_some {r : Reader σ} {max : Nat} {bytes rest : Bytes} (hout : r.out = [])
    (hmax : bytes.length ≤ max) (hsize : max < UInt32.size)
    (hfuture : r.future gz = some (sectionBytes bytes ++ rest)) :
    ∃ r', r.section gz max = .ok (bytes, r') ∧ r'.out = [] ∧ r'.future gz = some rest := by
  have hlen := length_toBeBytes (.ofNat bytes.length)
  rw [sectionBytes, List.append_assoc] at hfuture
  obtain ⟨r₁, htake₁, hout₁, hfuture₁⟩ := take_some (n := 4) hout hfuture
    (by rw [List.length_append, hlen]; omega)
  rw [List.drop_left' hlen] at hfuture₁
  rw [List.take_left' hlen] at htake₁
  have hcount : (fromBeBytes (toBeBytes (.ofNat bytes.length))).toNat = bytes.length := by
    rw [fromBeBytes_toBeBytes, UInt32.toNat_ofNat', Nat.mod_eq_of_lt]
    exact Nat.lt_of_le_of_lt hmax hsize
  obtain ⟨r₂, htake₂, hout₂, hfuture₂⟩ := take_some (n := bytes.length) hout₁ hfuture₁
    (by rw [List.length_append]; omega)
  rw [List.take_left' rfl] at htake₂
  rw [List.drop_left' rfl] at hfuture₂
  refine ⟨r₂, ?_, hout₂, hfuture₂⟩
  simp only [Reader.section, bind, Except.bind, htake₁, hcount, htake₂]
  rw [if_neg (by omega)]

/-! ### Tables -/

/-- Sections that may stand in a table. -/
def Sized (sections : List Bytes) : Prop := ∀ s ∈ sections, s ≠ [] ∧ s.length ≤ maxChunk

/-- The client takes these chunks one after another. -/
def Sends (client : CopyIn) (name : String) : List Bytes → List Bytes → Prop
  | _, [] => True
  | sent, chunk :: chunks =>
    client.send name sent chunk = .ok () ∧ Sends client name (sent ++ [chunk]) chunks

theorem maxChunk_lt : maxChunk < UInt32.size := by decide

theorem maxManifest_lt : maxManifest < UInt32.size := by decide

theorem tableBytes_nil : tableBytes [] = sectionBytes [] := rfl

theorem tableBytes_cons (s : Bytes) (sections : List Bytes) :
    tableBytes (s :: sections) = sectionBytes s ++ tableBytes sections := by
  simp [tableBytes]

theorem copySections_eq (client : CopyIn) (name : String) (r : Reader σ) (sent : List Bytes) :
    r.copySections gz client name sent = (r.section gz maxChunk).bind fun p =>
      if p.1.isEmpty then .ok (sent, p.2)
      else match client.send name sent p.1 with
        | .error e => .error (copyRefused name e)
        | .ok () => p.2.copySections gz client name (sent ++ [p.1]) := by
  rw [Reader.copySections]
  split <;> rename_i h <;> rw [h] <;> rfl

theorem copySections_ok {client : CopyIn} {name : String} {r r' : Reader σ}
    {sent all : List Bytes} (hout : r.out = [])
    (h : r.copySections gz client name sent = .ok (all, r')) :
    r'.out = [] ∧ ∃ sections, all = sent ++ sections ∧ Sized sections ∧
      Sends client name sent sections ∧
      r.future gz = (r'.future gz).map (tableBytes sections ++ ·) := by
  induction r, sent using Reader.copySections.induct gz client name with
  | case1 r sent e htaken =>
    rw [copySections_eq, htaken] at h
    cases h
  | case2 r sent chunk next htaken hempty =>
    obtain ⟨hout', -, hfuture⟩ := section_ok hout htaken
    rw [copySections_eq, htaken, Except.bind, if_pos hempty] at h
    obtain ⟨rfl, rfl⟩ := Prod.mk.inj (Except.ok.inj h)
    obtain rfl : chunk = [] := by simpa using hempty
    refine ⟨hout', [], by simp, ?_, trivial, ?_⟩
    · intro s hs
      cases hs
    · rw [hfuture, tableBytes_nil]
  | case3 r sent chunk next htaken hchunk e hsend =>
    rw [copySections_eq, htaken, Except.bind, if_neg hchunk] at h
    simp only [hsend] at h
    cases h
  | case4 r sent chunk next htaken hchunk hsend ih =>
    obtain ⟨hout', hlength, hfuture⟩ := section_ok hout htaken
    rw [copySections_eq, htaken, Except.bind, if_neg hchunk] at h
    simp only [hsend] at h
    obtain ⟨hout'', sections, hall, hsized, hsends, hfuture'⟩ := ih hout' h
    refine ⟨hout'', chunk :: sections, by simp [hall], ?_, ⟨hsend, hsends⟩, ?_⟩
    · intro s hs
      rcases List.mem_cons.mp hs with rfl | hs
      · exact ⟨by simpa using hchunk, hlength⟩
      · exact hsized s hs
    · rw [hfuture, hfuture', Option.map_map, tableBytes_cons]
      congr 1
      funext rest
      exact (List.append_assoc _ _ _).symm

theorem copySections_some {client : CopyIn} {name : String} {r : Reader σ}
    {sent sections : List Bytes} {rest : Bytes} (hout : r.out = []) (hsized : Sized sections)
    (hsends : Sends client name sent sections)
    (hfuture : r.future gz = some (tableBytes sections ++ rest)) :
    ∃ r', r.copySections gz client name sent = .ok (sent ++ sections, r') ∧ r'.out = [] ∧
      r'.future gz = some rest := by
  induction sections generalizing r sent with
  | nil =>
    obtain ⟨r', htaken, hout', hfuture'⟩ := section_some hout (Nat.zero_le _) maxChunk_lt hfuture
    refine ⟨r', ?_, hout', hfuture'⟩
    rw [copySections_eq, htaken, List.append_nil]
    rfl
  | cons s sections ih =>
    obtain ⟨hne, hlength⟩ := hsized s List.mem_cons_self
    rw [tableBytes_cons, List.append_assoc] at hfuture
    obtain ⟨r₁, htaken, hout₁, hfuture₁⟩ := section_some hout hlength maxChunk_lt hfuture
    obtain ⟨r', hcopy, hout', hfuture'⟩ := ih hout₁
      (fun s hs => hsized s (List.mem_cons_of_mem _ hs)) hsends.2 hfuture₁
    refine ⟨r', ?_, hout', hfuture'⟩
    rw [copySections_eq, htaken, Except.bind, if_neg (by simpa using hne)]
    simp only [hsends.1]
    rw [hcopy, List.append_assoc, List.singleton_append]

/-- The client opens a table, takes its sections and reports the manifest's rows. -/
structure Copied (client : CopyIn) (table : TableManifest) (name : String) (columns : List String)
    (sections : List Bytes) : Prop where
  opens : client.copyIn name columns = .ok ()
  sends : Sends client name [] sections
  rows : client.finish name sections = .ok table.rows

theorem copyTable_ok {client : CopyIn} {table : TableManifest} {name : String}
    {columns : List String} {r r' : Reader σ} {sections : List Bytes} (hout : r.out = [])
    (h : r.copyTable gz client table name columns = .ok (sections, r')) :
    r'.out = [] ∧ Sized sections ∧ Copied client table name columns sections ∧
      r.future gz = (r'.future gz).map (tableBytes sections ++ ·) := by
  simp only [Reader.copyTable, bind, Except.bind] at h
  cases hopen : client.copyIn name columns with
  | error e =>
    rw [hopen] at h
    cases h
  | ok u =>
    cases hcopy : r.copySections gz client name [] with
    | error e =>
      rw [hopen, hcopy] at h
      cases h
    | ok p =>
      obtain ⟨all, next⟩ := p
      obtain ⟨hout', _, hall, hsized, hsends, hfuture⟩ := copySections_ok hout hcopy
      rw [List.nil_append] at hall
      subst hall
      cases hrows : client.finish name all with
      | error e =>
        rw [hopen, hcopy] at h
        simp only [Except.mapError, hrows] at h
        cases h
      | ok rows =>
        rw [hopen, hcopy] at h
        simp only [Except.mapError, hrows] at h
        split at h
        · cases h
        · rename_i hsame
          obtain ⟨rfl, rfl⟩ := Prod.mk.inj (Except.ok.inj h)
          have hrows' : rows = table.rows := by simpa using hsame
          exact ⟨hout', hsized, ⟨hopen, hsends, hrows' ▸ hrows⟩, hfuture⟩

theorem copyTable_some {client : CopyIn} {table : TableManifest} {name : String}
    {columns : List String} {r : Reader σ} {sections : List Bytes} {rest : Bytes}
    (hout : r.out = []) (hsized : Sized sections)
    (hcopied : Copied client table name columns sections)
    (hfuture : r.future gz = some (tableBytes sections ++ rest)) :
    ∃ r', r.copyTable gz client table name columns = .ok (sections, r') ∧ r'.out = [] ∧
      r'.future gz = some rest := by
  obtain ⟨r', hcopy, hout', hfuture'⟩ := copySections_some hout hsized hcopied.sends hfuture
  refine ⟨r', ?_, hout', hfuture'⟩
  simp only [Reader.copyTable, bind, Except.bind, hcopied.opens, Except.mapError, hcopy,
    List.nil_append, hcopied.rows]
  rw [if_neg (by simp)]
  rfl

/-- Each table of the list is copied from its own sections. -/
def CopiedAll (client : CopyIn) : List (TableManifest × String × List String) →
    List (List Bytes) → Prop
  | [], [] => True
  | (table, name, columns) :: rest, sections :: others =>
    Sized sections ∧ Copied client table name columns sections ∧ CopiedAll client rest others
  | _, _ => False

theorem copyTables_ok {client : CopyIn} {list : List (TableManifest × String × List String)}
    {r r' : Reader σ} {sent : List (List Bytes)} (hout : r.out = [])
    (h : r.copyTables gz client list = .ok (sent, r')) :
    r'.out = [] ∧ CopiedAll client list sent ∧
      r.future gz = (r'.future gz).map (sent.flatMap tableBytes ++ ·) := by
  induction list generalizing r sent with
  | nil =>
    obtain ⟨rfl, rfl⟩ := Prod.mk.inj (Except.ok.inj h)
    refine ⟨hout, trivial, ?_⟩
    simp
  | cons t list ih =>
    obtain ⟨table, name, columns⟩ := t
    simp only [Reader.copyTables, bind, Except.bind] at h
    split at h
    · cases h
    · rename_i p hfirst
      obtain ⟨hout₁, hsized, hcopied, hfuture₁⟩ := copyTable_ok hout hfirst
      split at h
      · cases h
      · rename_i q hrest
        obtain ⟨others, r₂⟩ := q
        obtain ⟨rfl, rfl⟩ := Prod.mk.inj (Except.ok.inj h)
        obtain ⟨hout₂, hall, hfuture₂⟩ := ih hout₁ hrest
        refine ⟨hout₂, ⟨hsized, hcopied, hall⟩, ?_⟩
        rw [hfuture₁, hfuture₂, Option.map_map, List.flatMap_cons]
        congr 1
        funext rest
        exact (List.append_assoc _ _ _).symm

theorem copyTables_some {client : CopyIn} {list : List (TableManifest × String × List String)}
    {r : Reader σ} {sent : List (List Bytes)} {rest : Bytes} (hout : r.out = [])
    (hcopied : CopiedAll client list sent)
    (hfuture : r.future gz = some (sent.flatMap tableBytes ++ rest)) :
    ∃ r', r.copyTables gz client list = .ok (sent, r') ∧ r'.out = [] ∧
      r'.future gz = some rest := by
  induction list generalizing r sent with
  | nil =>
    match sent, hcopied with
    | [], _ => exact ⟨r, rfl, hout, hfuture⟩
  | cons t list ih =>
    obtain ⟨table, name, columns⟩ := t
    match sent, hcopied with
    | sections :: others, ⟨hsized, hfirst, hothers⟩ =>
      rw [List.flatMap_cons, List.append_assoc] at hfuture
      obtain ⟨r₁, hcopy₁, hout₁, hfuture₁⟩ := copyTable_some hout hsized hfirst hfuture
      obtain ⟨r₂, hcopy₂, hout₂, hfuture₂⟩ := ih hout₁ hothers hfuture₁
      refine ⟨r₂, ?_, hout₂, hfuture₂⟩
      simp only [Reader.copyTables, bind, Except.bind, hcopy₁, hcopy₂]
      rfl

/-! ### The whole archive -/

theorem decoded_eq_nil {r : Reader σ} (h : r.future gz = some []) : r.decoded = [] := by
  obtain ⟨rest, -, hrest⟩ := Option.map_eq_some_iff.mp h
  exact (List.append_eq_nil_iff.mp hrest).1

/-- A load has used up what there was, and there was nothing else. -/
theorem load_ok_iff {client : CopyIn} {manifest : Manifest} {r : Reader σ}
    {sent : List (List Bytes)} (hout : r.out = []) :
    (∃ r', r.load gz client manifest = .ok (sent, r')) ↔
      CopiedAll client (manifest.tables.zip tables) sent ∧
        r.future gz = some (sent.flatMap tableBytes) := by
  constructor
  · rintro ⟨r', h⟩
    simp only [Reader.load, bind, Except.bind] at h
    split at h
    · cases h
    · rename_i p hcopy
      obtain ⟨hout₁, hcopied, hfuture⟩ := copyTables_ok hout hcopy
      split at h
      · cases h
      · rename_i hdecoded
        have hdecoded : p.2.decoded = [] := by simpa using hdecoded
        split at h
        · cases h
        · rename_i q hfill
          obtain ⟨-, -, hend, -⟩ := fill_ok hout₁ hfill
          split at h
          · cases h
          · rename_i hmore
            obtain ⟨rfl, rfl⟩ := Prod.mk.inj (Except.ok.inj h)
            have hnothing := (hend (by simpa using hmore)).2
            rw [hdecoded] at hnothing
            rw [hfuture, hnothing, Option.map_some, List.append_nil]
            exact ⟨hcopied, rfl⟩
  · rintro ⟨hcopied, hfuture⟩
    rw [← List.append_nil (sent.flatMap tableBytes)] at hfuture
    obtain ⟨r₁, hcopy, hout₁, hfuture₁⟩ := copyTables_some hout hcopied hfuture
    -- Nothing is decoded, and nothing will be: the next `fill` says so.
    have hdecoded := decoded_eq_nil hfuture₁
    cases hfill : r₁.fill gz with
    | error e =>
      rw [fill_error hfill] at hfuture₁
      cases hfuture₁
    | ok p =>
      obtain ⟨more, r₂⟩ := p
      cases more with
      | true =>
        obtain ⟨-, hsame, -, hmore⟩ := fill_ok hout₁ hfill
        exact absurd (decoded_eq_nil (hsame.trans hfuture₁)) (hmore rfl)
      | false =>
        refine ⟨r₂, ?_⟩
        simp only [Reader.load, bind, Except.bind, hcopy, hdecoded, hfill]
        rfl

/-- The five bytes an archive starts with. -/
def archiveHeader : Bytes := magic ++ [formatVersion]

/-- What has come of a header is accepted exactly where it can still become one. -/
theorem checkHeader_iff {header : Bytes} (h : header.length ≤ 5) :
    checkHeader header = .ok () ↔ header <+: archiveHeader := by
  match header, h with
  | [], _ => simp [checkHeader]
  | [a], _ => simp [checkHeader, archiveHeader, magic]
  | [a, b], _ => simp [checkHeader, archiveHeader, magic]
  | [a, b, c], _ => simp [checkHeader, archiveHeader, magic]
  | [a, b, c, d], _ => simp [checkHeader, archiveHeader, magic]
  | [a, b, c, d, e], _ =>
    by_cases hmagic : [a, b, c, d] = magic
    · by_cases hversion : e = formatVersion
      · simp_all [checkHeader, archiveHeader, magic]
      · simp_all [checkHeader, archiveHeader, magic]
    · simp_all [checkHeader, archiveHeader, magic]

theorem eq_archiveHeader {header : Bytes} (hheader : header <+: archiveHeader)
    (h : 5 ≤ header.length) : header = archiveHeader :=
  hheader.eq_of_length (Nat.le_antisymm hheader.length_le h)

/-- The header with what one more chunk brings of it. -/
theorem header_append {header bytes rest : Bytes} (hheader : header <+: archiveHeader)
    (h : archiveHeader <+: header ++ (bytes ++ rest)) :
    header ++ bytes.take (5 - header.length) <+: archiveHeader ∧
      archiveHeader <+: (header ++ bytes.take (5 - header.length)) ++ rest := by
  have hlen : header.length ≤ 5 := hheader.length_le
  have hlen' : (header ++ bytes.take (5 - header.length)).length ≤ 5 := by
    rw [List.length_append, List.length_take]
    omega
  have hwhole : header ++ bytes.take (5 - header.length) <+: header ++ (bytes ++ rest) :=
    (List.prefix_append_right_inj _).mpr ((List.take_prefix _ _).trans (List.prefix_append _ _))
  have hheader' := List.prefix_of_prefix_length_le hwhole h hlen'
  refine ⟨hheader', ?_⟩
  by_cases hshort : bytes.length ≤ 5 - header.length
  · rwa [List.take_of_length_le hshort, List.append_assoc]
  · -- The chunk completes the header.
    rw [eq_archiveHeader hheader']
    · exact List.prefix_append _ _
    · rw [List.length_append, List.length_take]
      omega

/-- The pieces of an upload are cut from what follows the header, where the header is right. -/
theorem upcoming_some {header : Bytes} {chunks : List Bytes} (hheader : header <+: archiveHeader)
    (h : archiveHeader <+: header ++ chunks.flatten) :
    ∃ ps, upcoming header (chunks.map .ok) = some ps ∧
      ps.flatten = chunks.flatten.drop (5 - header.length) := by
  have hmagic : magic.length + 1 = 5 := rfl
  induction chunks generalizing header with
  | nil =>
    have hlong : 5 ≤ header.length := by
      have hle := h.length_le
      rwa [List.flatten_nil, List.append_nil] at hle
    refine ⟨[], ?_, by simp⟩
    rw [List.map_nil, upcoming, hmagic, if_neg (by omega)]
  | cons bytes chunks ih =>
    rw [List.flatten_cons] at h ⊢
    rw [List.map_cons, upcoming, hmagic]
    by_cases hwanted : 0 < 5 - header.length
    · obtain ⟨hheader', h'⟩ := header_append hheader h
      obtain ⟨ps, hps, hflatten⟩ := ih hheader' h'
      rw [if_pos hwanted, (checkHeader_iff hheader'.length_le).mpr hheader']
      refine ⟨_, by rw [hps]; rfl, ?_⟩
      rw [List.flatten_append, flatten_pieces, hflatten, List.drop_append, List.length_append,
        List.length_take]
      congr 2
      omega
    · have hfull : 5 - header.length = 0 := Nat.eq_zero_of_not_pos hwanted
      have heq := eq_archiveHeader hheader (by omega)
      obtain ⟨ps, hps, hflatten⟩ := ih hheader (heq ▸ List.prefix_append _ _)
      rw [if_neg hwanted]
      refine ⟨_, by rw [hps]; rfl, ?_⟩
      rw [List.flatten_append, flatten_pieces, hflatten, hfull, List.drop_zero, List.drop_zero]

/-- An upload that is not refused for its header has one. -/
theorem archiveHeader_of_upcoming {header : Bytes} {chunks : List Bytes} {ps : List Bytes}
    (hheader : header <+: archiveHeader) (h : upcoming header (chunks.map .ok) = some ps) :
    archiveHeader <+: header ++ chunks.flatten := by
  have hmagic : magic.length + 1 = 5 := rfl
  induction chunks generalizing header ps with
  | nil =>
    rw [List.map_nil, upcoming, hmagic] at h
    split at h
    · cases h
    · rename_i hlong
      rw [eq_archiveHeader hheader (by omega)]
      exact List.prefix_append _ _
  | cons bytes chunks ih =>
    rw [List.map_cons, upcoming, hmagic] at h
    have hlen' : (header ++ bytes.take (5 - header.length)).length ≤ 5 := by
      have hlen : header.length ≤ 5 := hheader.length_le
      rw [List.length_append, List.length_take]
      omega
    split at h
    · split at h
      · cases h
      · rename_i hcheck
        obtain ⟨ps', hps', -⟩ := Option.map_eq_some_iff.mp h
        have hheader' := (checkHeader_iff hlen').mp hcheck
        have hchunks := ih hheader' hps'
        rw [List.flatten_cons]
        by_cases hshort : bytes.length ≤ 5 - header.length
        · rwa [List.take_of_length_le hshort, List.append_assoc] at hchunks
        · rw [← eq_archiveHeader hheader' (by rw [List.length_append, List.length_take]; omega)]
          exact (List.prefix_append_right_inj _).mpr
            ((List.take_prefix _ _).trans (List.prefix_append _ _))
    · rename_i hwanted
      rw [eq_archiveHeader hheader (by omega)]
      exact List.prefix_append _ _

/-- The future of a new reader is a matter of the upload's bytes: the header, and what the rest
decompresses to. -/
theorem future_new (hgz : gz.Lawful) (chunks : List Bytes) (content : Bytes) :
    (Reader.new gz (chunks.map .ok)).future gz = some content ↔
      ∃ stream, chunks.flatten = archiveHeader ++ stream ∧ gz.inflate [stream] = some content := by
  have hnil : ([] : Bytes) <+: archiveHeader := List.nil_prefix
  have hfuture : (Reader.new gz (chunks.map .ok)).future gz =
      (upcoming [] (chunks.map .ok)).bind fun ps => gz.inflate ps := by
    simp [Reader.future, Reader.rest, Reader.new, pieces_nil, GzDecoder.inflate]
  rw [hfuture]
  constructor
  · intro h
    obtain ⟨ps, hps, hcontent⟩ := Option.bind_eq_some_iff.mp h
    have hstart := archiveHeader_of_upcoming hnil hps
    obtain ⟨ps', hps', hflatten⟩ := upcoming_some hnil hstart
    obtain rfl : ps = ps' := Option.some.inj (hps.symm.trans hps')
    obtain ⟨stream, hstream⟩ := hstart
    rw [List.nil_append] at hstream
    refine ⟨stream, hstream.symm, ?_⟩
    rw [← hcontent]
    apply hgz
    rw [hflatten, ← hstream]
    simp [archiveHeader, magic]
  · rintro ⟨stream, hstream, hcontent⟩
    have hstart : archiveHeader <+: [] ++ chunks.flatten := by
      rw [List.nil_append, hstream]
      exact List.prefix_append _ _
    obtain ⟨ps, hps, hflatten⟩ := upcoming_some hnil hstart
    rw [hps, Option.bind_some, ← hcontent]
    apply hgz
    rw [hflatten, hstream]
    simp [archiveHeader, magic]

variable {fromSlice : Bytes → Except String Manifest}

theorem manifest_ok {r r' : Reader σ} {manifest : Manifest} (hout : r.out = [])
    (h : r.manifest gz fromSlice = .ok (manifest, r')) :
    r'.out = [] ∧ ∃ raw, raw.length ≤ maxManifest ∧ fromSlice raw = .ok manifest ∧
      checkManifest manifest = .ok () ∧
      r.future gz = (r'.future gz).map (sectionBytes raw ++ ·) := by
  simp only [Reader.manifest, bind, Except.bind] at h
  split at h
  · cases h
  · rename_i p hsection
    obtain ⟨hout', hlength, hfuture⟩ := section_ok hout hsection
    cases hjson : fromSlice p.1 with
    | error e =>
      simp only [hjson, Except.mapError] at h
      cases h
    | ok m =>
      cases hcheck : checkManifest m with
      | error e =>
        simp only [hjson, Except.mapError, hcheck] at h
        cases h
      | ok u =>
        simp only [hjson, Except.mapError, hcheck] at h
        obtain ⟨rfl, rfl⟩ := Prod.mk.inj (Except.ok.inj h)
        exact ⟨hout', p.1, hlength, hjson, hcheck, hfuture⟩

theorem manifest_some {r : Reader σ} {manifest : Manifest} {raw rest : Bytes} (hout : r.out = [])
    (hlength : raw.length ≤ maxManifest) (hjson : fromSlice raw = .ok manifest)
    (hcheck : checkManifest manifest = .ok ())
    (hfuture : r.future gz = some (sectionBytes raw ++ rest)) :
    ∃ r', r.manifest gz fromSlice = .ok (manifest, r') ∧ r'.out = [] ∧ r'.future gz = some rest := by
  obtain ⟨r', hsection, hout', hfuture'⟩ := section_some hout hlength maxManifest_lt hfuture
  refine ⟨r', ?_, hout', hfuture'⟩
  simp only [Reader.manifest, bind, Except.bind, hsection, hjson, Except.mapError, hcheck]
  rfl

/-- The bytes of an archive: the header, then one gzip stream of a manifest this gateway loads and
the sections of its tables. -/
def IsArchive (gz : GzDecoder σ) (fromSlice : Bytes → Except String Manifest) (bytes : Bytes)
    (manifest : Manifest) (sent : List (List Bytes)) : Prop :=
  ∃ stream raw, bytes = archiveHeader ++ stream ∧
    gz.inflate [stream] = some (sectionBytes raw ++ sent.flatMap tableBytes) ∧
    raw.length ≤ maxManifest ∧ fromSlice raw = .ok manifest ∧ checkManifest manifest = .ok () ∧
    sent.length = tables.length ∧ ∀ sections ∈ sent, Sized sections

/-- The client takes the sections of every table, and reports the manifest's rows. -/
def CopyAccepts (client : CopyIn) (manifest : Manifest) (sent : List (List Bytes)) : Prop :=
  ∀ p ∈ (manifest.tables.zip tables).zip sent, Copied client p.1.1 p.1.2.1 p.1.2.2 p.2

theorem copiedAll_iff {client : CopyIn} {list : List (TableManifest × String × List String)}
    {sent : List (List Bytes)} :
    CopiedAll client list sent ↔ sent.length = list.length ∧ (∀ sections ∈ sent, Sized sections) ∧
      ∀ p ∈ list.zip sent, Copied client p.1.1 p.1.2.1 p.1.2.2 p.2 := by
  induction list generalizing sent with
  | nil => cases sent <;> simp [CopiedAll]
  | cons t list ih =>
    cases sent with
    | nil => simp [CopiedAll]
    | cons sections others =>
      obtain ⟨table, name, columns⟩ := t
      rw [CopiedAll, ih]
      simp only [List.length_cons, Nat.add_right_cancel_iff, List.forall_mem_cons, List.zip_cons_cons]
      tauto

theorem sends_of_ok {client : CopyIn} (h : ∀ name sent chunk, client.send name sent chunk = .ok ())
    (name : String) (sent chunks : List Bytes) : Sends client name sent chunks := by
  induction chunks generalizing sent with
  | nil => trivial
  | cons chunk chunks ih => exact ⟨h name sent chunk, ih _⟩

theorem length_zip_of_checkManifest {manifest : Manifest} (h : checkManifest manifest = .ok ()) :
    (manifest.tables.zip tables).length = tables.length := by
  have hlength : manifest.tables.length = tables.length := by
    simp only [checkManifest] at h
    split at h
    · cases h
    · split at h
      · cases h
      · split at h
        · rename_i htables
          exact beq_iff_eq.mp (Bool.and_eq_true_iff.mp htables).1
        · cases h
  rw [List.length_zip, hlength, Nat.min_self]

/-- What the reader accepts, and what it then sends: an archive whose tables the client takes. -/
theorem readArchive_ok_iff {client : CopyIn} (hgz : gz.Lawful) (chunks : List Bytes)
    (manifest : Manifest) (sent : List (List Bytes)) :
    readArchive gz fromSlice client (chunks.map .ok) = .ok (manifest, sent) ↔
      IsArchive gz fromSlice chunks.flatten manifest sent ∧ CopyAccepts client manifest sent := by
  have hout : (Reader.new gz (chunks.map .ok)).out = [] := rfl
  constructor
  · intro h
    simp only [readArchive, bind, Except.bind] at h
    split at h
    · cases h
    · rename_i p hmanifest
      split at h
      · cases h
      · rename_i q hload
        obtain ⟨rfl, rfl⟩ := Prod.mk.inj (Except.ok.inj h)
        obtain ⟨hout', raw, hlength, hjson, hcheck, hfuture⟩ := manifest_ok hout hmanifest
        obtain ⟨hcopied, hfuture'⟩ := (load_ok_iff hout').mp ⟨q.2, hload⟩
        rw [hfuture', Option.map_some] at hfuture
        obtain ⟨stream, hstream, hcontent⟩ := (future_new hgz chunks _).mp hfuture
        obtain ⟨hcount, hsized, haccepts⟩ := copiedAll_iff.mp hcopied
        rw [length_zip_of_checkManifest hcheck] at hcount
        exact ⟨⟨stream, raw, hstream, hcontent, hlength, hjson, hcheck, hcount, hsized⟩, haccepts⟩
  · rintro ⟨⟨stream, raw, hstream, hcontent, hlength, hjson, hcheck, hcount, hsized⟩, haccepts⟩
    have hfuture := (future_new hgz chunks _).mpr ⟨stream, hstream, hcontent⟩
    obtain ⟨r', hmanifest, hout', hfuture'⟩ := manifest_some hout hlength hjson hcheck hfuture
    rw [← length_zip_of_checkManifest hcheck] at hcount
    have hcopied := copiedAll_iff.mpr ⟨hcount, hsized, haccepts⟩
    obtain ⟨r'', hload⟩ := (load_ok_iff hout').mpr ⟨hcopied, hfuture'⟩
    simp only [readArchive, bind, Except.bind, hmanifest, hload]
    rfl

/-- The reader accepts exactly its format, however the upload is split: an upload of the bytes of an
archive is accepted with the manifest and the sections it holds, any other is refused, and two
uploads of the same bytes end alike. -/
theorem readArchive_accepts_iff {client : CopyIn} (hgz : gz.Lawful) (bytes : Bytes)
    (hcopy : ∀ manifest sent, IsArchive gz fromSlice bytes manifest sent →
      CopyAccepts client manifest sent) :
    (∀ chunks : List Bytes, chunks.flatten = bytes → ∀ manifest sent,
      readArchive gz fromSlice client (chunks.map .ok) = .ok (manifest, sent) ↔
        IsArchive gz fromSlice bytes manifest sent) ∧
    ∀ chunks₁ chunks₂ : List Bytes, chunks₁.flatten = bytes → chunks₂.flatten = bytes →
      ∀ manifest sent,
        readArchive gz fromSlice client (chunks₁.map .ok) = .ok (manifest, sent) ↔
          readArchive gz fromSlice client (chunks₂.map .ok) = .ok (manifest, sent) := by
  have haccepts : ∀ chunks : List Bytes, chunks.flatten = bytes → ∀ manifest sent,
      readArchive gz fromSlice client (chunks.map .ok) = .ok (manifest, sent) ↔
        IsArchive gz fromSlice bytes manifest sent := by
    intro chunks hchunks manifest sent
    rw [readArchive_ok_iff hgz, hchunks]
    exact ⟨fun h => h.1, fun h => ⟨h, hcopy manifest sent h⟩⟩
  refine ⟨haccepts, ?_⟩
  intro chunks₁ chunks₂ h₁ h₂ manifest sent
  rw [haccepts chunks₁ h₁, haccepts chunks₂ h₂]

end Reader

/-- A decoder that keeps what it is given, and looks at it at the end. -/
def storedDecoder : GzDecoder Bytes where
  new := []
  writeAll state bytes := .ok (state ++ bytes, [])
  tryFinish state :=
    match Gzip.gunzip state with
    | some content => .ok (state, content)
    | none => .error "corrupt deflate stream"

theorem storedDecoder_inflateFrom (state : Bytes) (ps : List Bytes) :
    storedDecoder.inflateFrom state ps = Gzip.gunzip (state ++ ps.flatten) := by
  induction ps generalizing state with
  | nil =>
    simp only [GzDecoder.inflateFrom, storedDecoder, List.flatten_nil, List.append_nil]
    cases Gzip.gunzip state <;> rfl
  | cons p ps ih =>
    have hnext := ih (state ++ p)
    simp only [GzDecoder.inflateFrom, storedDecoder] at hnext ⊢
    rw [hnext]
    simp

theorem storedDecoder_inflate (ps : List Bytes) :
    storedDecoder.inflate ps = Gzip.gunzip ps.flatten :=
  storedDecoder_inflateFrom [] ps

theorem storedDecoder_lawful : storedDecoder.Lawful := by
  intro ps qs h
  rw [storedDecoder_inflate, storedDecoder_inflate, h]

/-- What a binary COPY starts with: its signature, flags and extension. -/
def copyStart : Bytes := utf8 "PGCOPY\n" ++ [255, 13, 10, 0] ++ List.replicate 8 0

/-- A frame with id 256 and no data, at the epoch of PostgreSQL, as a row of a binary COPY. -/
def copyRow : Bytes :=
  [0, 11] ++ ([0, 0, 0, 8] ++ List.replicate 8 0) ++ ([0, 0, 0, 8] ++ List.replicate 8 0) ++
    ([0, 0, 0, 3] ++ utf8 "can") ++ [0, 0, 0, 4, 0, 0, 1, 0] ++ [0, 0, 0, 2, 0, 0] ++ [0, 0, 0, 0] ++
    [0, 0, 0, 4, 0, 0, 0, 0] ++ [0, 0, 0, 2, 0, 0] ++ List.replicate 12 255

/-- The messages of one frame and no events. -/
def oneRow (name : String) : List Bytes :=
  if name = "capture_frame" then [copyStart ++ copyRow, [255, 255]] else [copyStart ++ [255, 255]]

def oneRowCount (name : String) : Int64 := if name = "capture_frame" then 1 else 0

/-- A client that takes everything, and finds these rows in it. -/
def oneRowClient : CopyIn where
  copyIn _ _ := .ok ()
  send _ _ _ := .ok ()
  finish name _ := .ok (oneRowCount name).toUInt64

/-- The manifest of one frame and no events. -/
def oneRowManifest : Manifest where
  schemaVersion := schemaVersion
  gatewayVersion := "0.1.14"
  createdAt := 0
  database := "site_a"
  window := none
  tables := tables.map fun t => { name := t.1, columns := t.2, rows := (oneRowCount t.1).toUInt64 }

def oneRowRaw : Bytes := oneRowManifest.toVec fun _ => "1970-01-01T00:00:00Z"

/-- `serde_json::from_slice` on that manifest's text, and on no other. -/
def oneRowFromSlice (raw : Bytes) : Except String Manifest :=
  if raw = oneRowRaw then .ok oneRowManifest else .error "expected value"

/-- Each table's messages, one to a section. -/
def oneRowSections : List (List Bytes) := tables.map fun t => oneRow t.1

def oneRowArchive : Bytes :=
  archiveHeader ++ Gzip.gzip (sectionBytes oneRowRaw ++ oneRowSections.flatMap tableBytes)

/-- An archive of one frame, cut within its header and within its stream, with an empty chunk
between. -/
theorem readArchive_oneRowArchive :
    readArchive storedDecoder oneRowFromSlice oneRowClient
      ([oneRowArchive.take 3, [], (oneRowArchive.drop 3).take 400,
        (oneRowArchive.drop 3).drop 400].map .ok) = .ok (oneRowManifest, oneRowSections) := by
  have hcopy : ∀ manifest sent, IsArchive storedDecoder oneRowFromSlice oneRowArchive manifest sent →
      CopyAccepts oneRowClient manifest sent := by
    rintro manifest sent ⟨-, raw, -, -, -, hjson, -, -, -⟩ p hp
    obtain rfl : oneRowManifest = manifest := by
      simp only [oneRowFromSlice] at hjson
      split at hjson
      · exact Except.ok.inj hjson
      · cases hjson
    have hrows : ∀ q ∈ oneRowManifest.tables.zip tables,
        (oneRowCount q.2.1).toUInt64 = q.1.rows := by decide
    refine ⟨rfl, sends_of_ok (fun _ _ _ => rfl) _ _ _, ?_⟩
    exact congrArg Except.ok (hrows p.1 (List.of_mem_zip hp).1)
  apply ((readArchive_accepts_iff storedDecoder_lawful oneRowArchive hcopy).1 _ ?_ _ _).mpr
  · refine ⟨_, oneRowRaw, rfl, ?_, by decide +kernel, ?_, by decide +kernel, rfl, ?_⟩
    · rw [storedDecoder_inflate, List.flatten_singleton, Gzip.gunzip_gzip]
    · rw [oneRowFromSlice, if_pos rfl]
    · unfold Sized
      decide +kernel
  · simp only [List.flatten_cons, List.flatten_nil, List.append_nil, List.nil_append]
    rw [List.take_append_drop, List.take_append_drop]

end WireTap.Gateway.Wtar
