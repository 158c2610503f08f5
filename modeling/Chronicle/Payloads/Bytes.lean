import Chronicle.Payloads.Leases

/-!
# Byte payloads

Bytes are published in chunks, each a payload of its own. A writer cuts what it is given at
`CHUNK_BYTES`; a reader leases one chunk at a time, and a consumer may take the chunks one by one.
-/

namespace Chronicle.Payloads

open Relation

/-- A byte payload is stored as itself. -/
def rawCodec : Codec (List UInt8) where
  encode bytes := .ok bytes
  decode bytes := .ok bytes
  decode_encode := by
    intro value bytes h
    cases h
    rfl

variable {H : Type} [DecidableEq H] {platform : Platform (List UInt8) H}

/-- A value at a new address is published; its handle is the last one. -/
def World.publishNew {V : Type} (platform : Platform V H) (w : World V H) (address : Nat)
    (puts : Nat → Put) (value : V) (residentBytes : Nat) (codec : Codec V) :
    Option (World V H × PayloadHandle V) := do
  let published ← w.run platform
    [.allocate ⟨address, value, none⟩, .publish w.shared.length residentBytes codec puts]
  let handle ← published.handles.getLast?
  return (published, handle)

theorem publishNew_spec {V : Type} {platform : Platform V H} {w : World V H} {address : Nat}
    (puts : Nat → Put) (value : V) (residentBytes : Nat) (codec : Codec V)
    (h : Reachable platform w) (hfree : w.Free address []) :
    ∃ w' handle, w.publishNew platform address puts value residentBytes codec = some (w', handle) ∧
      Reachable platform w' ∧ handle.published = value ∧ handle ∈ w'.handles := by
  have hpossible : w.Possible (.allocate ⟨address, value, none⟩) := hfree
  have hallocated : Reachable platform { w with shared := w.shared ++ [⟨address, value, none⟩] } :=
    .step h hpossible rfl
  obtain ⟨published, id, hstep, hhandles⟩ := publish_isSome residentBytes codec puts hallocated
    (List.getElem?_concat_length)
  have hlast : published.handles.getLast? = some ⟨id, value⟩ := by
    rw [hhandles, List.getLast?_concat]
  have hrun : w.run platform
      [.allocate ⟨address, value, none⟩, .publish w.shared.length residentBytes codec puts] =
      some published := by
    show (World.step platform { w with shared := w.shared ++ [⟨address, value, none⟩] } _ >>=
      fun w' => some w') = some published
    rw [hstep]
    rfl
  have hpublished : Reachable platform published := by
    refine .step hallocated ?_ hstep
    trivial
  refine ⟨published, ⟨id, value⟩, ?_, hpublished, rfl, ?_⟩
  · rw [World.publishNew, hrun]
    show (published.handles.getLast? >>= fun handle => some (published, handle)) = _
    rw [hlast]
    rfl
  · rw [hhandles]
    exact List.mem_append_right _ (List.mem_singleton_self _)

/-! ## Writing -/

/-- `CHUNK_BYTES` -/
def chunkBytes : Nat := 1024 * 1024

structure PayloadBytes where
  chunks : List (PayloadHandle (List UInt8)) := []
  len : Nat := 0

/-- A store in use: where the allocator places a value, and what the backend answers to a put. -/
structure PayloadStore (platform : Platform (List UInt8) H) where
  world : World (List UInt8) H
  reachable : Reachable platform world
  address : World (List UInt8) H → Nat
  free : ∀ w : World (List UInt8) H, w.Free (address w) []
  puts : World (List UInt8) H → Nat → Put

/-- `publish` of a buffer. -/
def PayloadStore.publish (store : PayloadStore platform) (bytes : List UInt8) :
    PayloadStore platform × PayloadHandle (List UInt8) :=
  have hspec := publishNew_spec (store.puts store.world) bytes bytes.length rawCodec
    store.reachable (store.free store.world)
  match hpublished : store.world.publishNew platform (store.address store.world)
      (store.puts store.world) bytes bytes.length rawCodec with
  | some (published, handle) =>
      ({ store with
        world := published
        reachable := by
          obtain ⟨w', handle', hw', hreached, -⟩ := hspec
          rw [hpublished] at hw'
          cases hw'
          exact hreached }, handle)
  | none => absurd hpublished (by
      obtain ⟨w', handle', hw', -⟩ := hspec
      rw [hw']
      exact Option.some_ne_none _)

theorem PayloadStore.publish_spec (store : PayloadStore platform) (bytes : List UInt8) :
    (store.publish bytes).2.published = bytes ∧
      (store.publish bytes).2 ∈ (store.publish bytes).1.world.handles := by
  obtain ⟨w', handle', hw', -, hpublished, hheld⟩ := publishNew_spec (store.puts store.world) bytes
    bytes.length rawCodec store.reachable (store.free store.world)
  unfold PayloadStore.publish
  split
  · next published handle hfound =>
      rw [hfound] at hw'
      cases hw'
      exact ⟨hpublished, hheld⟩
  · next hnone =>
      rw [hnone] at hw'
      cases hw'

/-- The buffer never holds a whole chunk between two calls. -/
structure PayloadByteWriter (platform : Platform (List UInt8) H) where
  store : PayloadStore platform
  output : PayloadBytes := {}
  buffer : List UInt8 := []
  short : buffer.length < chunkBytes

def PayloadByteWriter.withStore (store : PayloadStore platform) : PayloadByteWriter platform where
  store := store
  short := by decide

/-- `publish_buffer` -/
def publishBuffer (store : PayloadStore platform) (output : PayloadBytes) (buffer : List UInt8) :
    PayloadStore platform × PayloadBytes :=
  if buffer = [] then (store, output)
  else
    let published := store.publish buffer
    (published.1, { output with chunks := output.chunks ++ [published.2] })

/-- The loop of `write`. -/
def PayloadByteWriter.fill (writer : PayloadByteWriter platform) (bytes : List UInt8) :
    PayloadByteWriter platform :=
  if hempty : bytes = [] then writer
  else
    let take := min bytes.length (chunkBytes - writer.buffer.length)
    let buffer := writer.buffer ++ bytes.take take
    have hshort := writer.short
    have hlength : 0 < bytes.length := List.length_pos_iff.mpr hempty
    have hle : buffer.length ≤ chunkBytes := by
      simp only [buffer, take, List.length_append, List.length_take]
      omega
    have hdrop : (bytes.drop take).length < bytes.length := by
      simp only [take, List.length_drop]
      omega
    if hfull : buffer.length = chunkBytes then
      let published := publishBuffer writer.store writer.output buffer
      PayloadByteWriter.fill
        { store := published.1, output := published.2, short := by decide } (bytes.drop take)
    else
      PayloadByteWriter.fill
        { writer with buffer, short := Nat.lt_of_le_of_ne hle hfull } (bytes.drop take)
termination_by bytes.length
decreasing_by all_goals exact hdrop

def PayloadByteWriter.write (writer : PayloadByteWriter platform) (bytes : List UInt8) :
    PayloadByteWriter platform :=
  { writer with output := { writer.output with len := writer.output.len + bytes.length } }.fill bytes

def PayloadByteWriter.finish (writer : PayloadByteWriter platform) : PayloadBytes :=
  (publishBuffer writer.store writer.output writer.buffer).2

/-- Writes one after another. Before each of them other clients use the store. -/
def PayloadByteWriter.writeAll (writer : PayloadByteWriter platform)
    (writes : List ((PayloadStore platform → PayloadStore platform) × List UInt8)) :
    PayloadByteWriter platform :=
  writes.foldl (fun writer write => { writer with store := write.1 writer.store }.write write.2)
    writer

/-- The bytes that the chunks were published with. -/
def PayloadBytes.content (bytes : PayloadBytes) : List UInt8 :=
  bytes.chunks.flatMap PayloadHandle.published

/-- Chunks hold between one byte and `CHUNK_BYTES`. -/
def PayloadBytes.Cut (bytes : PayloadBytes) : Prop :=
  ∀ chunk ∈ bytes.chunks, 0 < chunk.published.length ∧ chunk.published.length ≤ chunkBytes

theorem publishBuffer_spec (store : PayloadStore platform) (output : PayloadBytes)
    {buffer : List UInt8} (hle : buffer.length ≤ chunkBytes) :
    (publishBuffer store output buffer).2.content = output.content ++ buffer ∧
      (publishBuffer store output buffer).2.len = output.len ∧
      (output.Cut → (publishBuffer store output buffer).2.Cut) := by
  unfold publishBuffer
  split
  · next hempty =>
      subst hempty
      exact ⟨(List.append_nil _).symm, rfl, fun hcut => hcut⟩
  · next hne =>
      obtain ⟨hpublished, -⟩ := store.publish_spec buffer
      refine ⟨?_, rfl, ?_⟩
      · simp only [PayloadBytes.content, List.flatMap_append, List.flatMap_singleton, hpublished]
      · intro hcut chunk hchunk
        rcases List.mem_append.mp hchunk with hold | hnew
        · exact hcut chunk hold
        · rw [List.mem_singleton.mp hnew, hpublished]
          exact ⟨List.length_pos_iff.mpr hne, hle⟩

/-- The loop publishes or keeps every byte once, in order. -/
theorem fill_spec (writer : PayloadByteWriter platform) (bytes : List UInt8) :
    (writer.fill bytes).output.content ++ (writer.fill bytes).buffer =
        writer.output.content ++ writer.buffer ++ bytes ∧
      (writer.fill bytes).output.len = writer.output.len ∧
      (writer.output.Cut → (writer.fill bytes).output.Cut) := by
  induction writer, bytes using PayloadByteWriter.fill.induct with
  | case1 writer =>
      rw [PayloadByteWriter.fill, dif_pos rfl, List.append_nil]
      exact ⟨rfl, rfl, fun hcut => hcut⟩
  | case2 writer bytes hempty take buffer hshort hlength hle hdrop hfull published ih =>
      rw [PayloadByteWriter.fill, dif_neg hempty]
      dsimp only
      rw [dif_pos hfull]
      obtain ⟨hcontent, hlen, hcut⟩ := publishBuffer_spec writer.store writer.output hle
      obtain ⟨hcontent', hlen', hcut'⟩ := ih
      refine ⟨hcontent'.trans ?_, hlen'.trans hlen, fun h => hcut' (hcut h)⟩
      show published.2.content ++ [] ++ bytes.drop take = _
      rw [hcontent, List.append_nil, List.append_assoc _ buffer, List.append_assoc writer.buffer,
        List.take_append_drop, ← List.append_assoc]
  | case3 writer bytes hempty take buffer hshort hlength hle hdrop hfull ih =>
      rw [PayloadByteWriter.fill, dif_neg hempty]
      dsimp only
      rw [dif_neg hfull]
      obtain ⟨hcontent, hlen, hcut⟩ := ih
      refine ⟨hcontent.trans ?_, hlen, hcut⟩
      show writer.output.content ++ buffer ++ bytes.drop take = _
      rw [List.append_assoc _ buffer, List.append_assoc writer.buffer, List.take_append_drop,
        ← List.append_assoc]

theorem writeAll_spec (writer : PayloadByteWriter platform)
    (writes : List ((PayloadStore platform → PayloadStore platform) × List UInt8)) :
    (writer.writeAll writes).output.content ++ (writer.writeAll writes).buffer =
        writer.output.content ++ writer.buffer ++ writes.flatMap Prod.snd ∧
      (writer.writeAll writes).output.len =
        writer.output.len + (writes.flatMap Prod.snd).length ∧
      (writer.output.Cut → (writer.writeAll writes).output.Cut) := by
  induction writes generalizing writer with
  | nil => exact ⟨(List.append_nil _).symm, rfl, fun hcut => hcut⟩
  | cons write writes ih =>
      obtain ⟨hcontent, hlen, hcut⟩ := fill_spec
        { writer with
          store := write.1 writer.store
          output := { writer.output with len := writer.output.len + write.2.length } } write.2
      obtain ⟨hcontents, hlens, hcuts⟩ :=
        ih (PayloadByteWriter.write { writer with store := write.1 writer.store } write.2)
      refine ⟨hcontents.trans ?_, hlens.trans ?_, fun h => hcuts (hcut h)⟩
      · rw [List.flatMap_cons, ← List.append_assoc]
        exact congrArg (· ++ _) hcontent
      · rw [List.flatMap_cons, List.length_append, ← Nat.add_assoc]
        exact congrArg (· + _) hlen

/-- What `finish` returns are the bytes written, in chunks. -/
theorem finish_spec (store : PayloadStore platform)
    (writes : List ((PayloadStore platform → PayloadStore platform) × List UInt8)) :
    let output := ((PayloadByteWriter.withStore store).writeAll writes).finish
    output.content = writes.flatMap Prod.snd ∧
      output.len = (writes.flatMap Prod.snd).length ∧ output.Cut := by
  obtain ⟨hcontent, hlen, hcut⟩ := writeAll_spec (PayloadByteWriter.withStore store) writes
  have hshort := ((PayloadByteWriter.withStore store).writeAll writes).short
  obtain ⟨hfinal, hkept, hcuts⟩ :=
    publishBuffer_spec ((PayloadByteWriter.withStore store).writeAll writes).store
      ((PayloadByteWriter.withStore store).writeAll writes).output hshort.le
  refine ⟨hfinal.trans (hcontent.trans ?_), hkept.trans (hlen.trans (Nat.zero_add _)), ?_⟩
  · exact List.nil_append _
  · exact hcuts (hcut fun _ hchunk => absurd hchunk List.not_mem_nil)

/-! ## Reading -/

/-- The leases that one call makes. -/
abbrev Leasing := PayloadHandle (List UInt8) → Except String (List UInt8)

/-- Each chunk is leased in some world of the store in which its handle is held. -/
def Leasing.OfStore (platform : Platform (List UInt8) H)
    (chunks : List (PayloadHandle (List UInt8))) (lease : Leasing) : Prop :=
  ∀ chunk ∈ chunks, ∃ w : World (List UInt8) H, Reachable platform w ∧ chunk ∈ w.handles ∧
    ∃ answer address footprint w' outcome,
      w.lease platform chunk answer address footprint = some (w', outcome) ∧
        lease chunk = outcome.map fun leased => leased.value.value

/-- The chunks not leased yet, the one leased, and how much of it was read. -/
structure PayloadBytesReader where
  chunks : List (PayloadHandle (List UInt8))
  current : Option (List UInt8)
  offset : Nat
  within : ∀ bytes ∈ current, offset ≤ bytes.length

def PayloadBytes.reader (bytes : PayloadBytes) : PayloadBytesReader where
  chunks := bytes.chunks
  current := none
  offset := 0
  within := nofun

/-- What is left of the leased chunk. -/
def PayloadBytesReader.rest (reader : PayloadBytesReader) : List UInt8 :=
  (reader.current.getD []).drop reader.offset

/-- As much of the leased chunk as the output holds. -/
def PayloadBytesReader.copy (reader : PayloadBytesReader) (size : Nat) :
    PayloadBytesReader × List UInt8 :=
  match hcurrent : reader.current with
  | some bytes =>
      let count := min size (bytes.length - reader.offset)
      ({ reader with
        offset := reader.offset + count
        within := by
          intro bytes' hbytes'
          have hwithin := reader.within bytes' hbytes'
          rw [hcurrent] at hbytes'
          cases hbytes'
          omega }, (bytes.drop reader.offset).take count)
  | none => (reader, [])

/-- The loop of `read`, once the leased chunk is read to its end. -/
def PayloadBytesReader.advance (lease : Leasing) (size : Nat) :
    List (PayloadHandle (List UInt8)) → Nat → PayloadBytesReader × Except String (List UInt8)
  | [], offset => (⟨[], none, offset, nofun⟩, .ok [])
  | chunk :: chunks, offset =>
      match lease chunk with
      | .error error => (⟨chunks, none, offset, nofun⟩, .error error)
      | .ok bytes =>
          let copied := PayloadBytesReader.copy ⟨chunks, some bytes, 0, fun _ _ => Nat.zero_le _⟩ size
          if copied.2 = [] then PayloadBytesReader.advance lease size chunks 0
          else (copied.1, .ok copied.2)

def PayloadBytesReader.read (lease : Leasing) (size : Nat) (reader : PayloadBytesReader) :
    PayloadBytesReader × Except String (List UInt8) :=
  if size = 0 then (reader, .ok [])
  else
    let copied := reader.copy size
    if copied.2 = [] then PayloadBytesReader.advance lease size reader.chunks reader.offset
    else (copied.1, .ok copied.2)

/-- Reads one after another, up to the first that fails. -/
def PayloadBytesReader.readAll (reader : PayloadBytesReader) :
    List (Nat × Leasing) → Except String (PayloadBytesReader × List (List UInt8))
  | [] => .ok (reader, [])
  | (size, lease) :: later =>
      match reader.read lease size with
      | (_, .error error) => .error error
      | (reader, .ok output) => do
          let (reader, outputs) ← reader.readAll later
          return (reader, output :: outputs)

/-- What the reader has not returned yet. -/
def PayloadBytesReader.remaining (reader : PayloadBytesReader) : List UInt8 :=
  reader.rest ++ reader.chunks.flatMap PayloadHandle.published

theorem copy_spec (reader : PayloadBytesReader) (size : Nat) :
    (reader.copy size).2 ++ (reader.copy size).1.rest = reader.rest ∧
      (reader.copy size).1.chunks = reader.chunks ∧ (reader.copy size).2.length ≤ size ∧
      (0 < size → (reader.copy size).2 = [] → reader.rest = []) := by
  obtain ⟨chunks, current, offset, hwithin⟩ := reader
  cases current with
  | none => exact ⟨rfl, rfl, Nat.zero_le _, fun _ _ => List.drop_nil⟩
  | some bytes =>
      have hle : offset ≤ bytes.length := hwithin bytes rfl
      refine ⟨?_, rfl, ?_, ?_⟩
      · show (bytes.drop offset).take _ ++ bytes.drop (offset + _) = bytes.drop offset
        rw [← List.drop_drop, List.take_append_drop]
      · show ((bytes.drop offset).take _).length ≤ size
        rw [List.length_take]
        omega
      · intro hsize hnone
        have hlength : ((bytes.drop offset).take (min size (bytes.length - offset))).length = 0 :=
          congrArg List.length hnone
        rw [List.length_take, List.length_drop] at hlength
        refine List.eq_nil_of_length_eq_zero ?_
        show (bytes.drop offset).length = 0
        rw [List.length_drop]
        omega

/-- The leases return what was published. -/
def Leasing.Published (chunks : List (PayloadHandle (List UInt8))) (lease : Leasing) : Prop :=
  ∀ chunk ∈ chunks, ∀ bytes, lease chunk = .ok bytes → bytes = chunk.published

theorem Leasing.Published.mono {chunks fewer : List (PayloadHandle (List UInt8))} {lease : Leasing}
    (h : lease.Published chunks) (hfewer : fewer ⊆ chunks) : lease.Published fewer :=
  fun chunk hchunk => h chunk (hfewer hchunk)

theorem Leasing.OfStore.published {chunks : List (PayloadHandle (List UInt8))} {lease : Leasing}
    (hhash : Function.Injective platform.hash) (h : lease.OfStore platform chunks) :
    lease.Published chunks := by
  intro chunk hchunk bytes hbytes
  obtain ⟨w, hreached, hheld, answer, address, footprint, w', outcome, hleased, heq⟩ :=
    h chunk hchunk
  rw [hbytes] at heq
  obtain ⟨leased, rfl, rfl⟩ := Library.Stages.map_eq_ok.mp heq.symm
  exact lease_published hhash hreached hheld hleased

/-- What a read returns comes next, and it returns nothing only where nothing remains. -/
structure Reads (lease : Leasing) (size : Nat) (chunks : List (PayloadHandle (List UInt8)))
    (remaining : List UInt8) (result : PayloadBytesReader × Except String (List UInt8)) : Prop where
  next : ∀ output, result.2 = .ok output →
    output ++ result.1.remaining = remaining ∧ output.length ≤ size ∧
      (0 < size → output = [] → remaining = [])
  unread : result.1.chunks ⊆ chunks
  failed : ∀ error, result.2 = .error error → ∃ chunk ∈ chunks, lease chunk = .error error

theorem advance_reads {lease : Leasing} {size : Nat} (hsize : 0 < size)
    {chunks : List (PayloadHandle (List UInt8))} (hlease : lease.Published chunks) (offset : Nat) :
    Reads lease size chunks (chunks.flatMap PayloadHandle.published)
      (PayloadBytesReader.advance lease size chunks offset) := by
  induction chunks generalizing offset with
  | nil =>
      refine ⟨?_, List.Subset.refl _, nofun⟩
      intro output houtput
      cases houtput
      exact ⟨List.append_nil _ ▸ List.drop_nil, Nat.zero_le _, fun _ _ => rfl⟩
  | cons chunk chunks ih =>
      rw [PayloadBytesReader.advance]
      cases hleased : lease chunk with
      | error error =>
          refine ⟨nofun, List.subset_cons_self _ _, ?_⟩
          intro error' herror
          cases herror
          exact ⟨chunk, List.mem_cons_self, hleased⟩
      | ok bytes =>
          obtain rfl := hlease chunk List.mem_cons_self bytes hleased
          have hcopy := copy_spec ⟨chunks, some chunk.published, 0, fun _ _ => Nat.zero_le _⟩ size
          obtain ⟨hrest, hchunks, hlength, hempty⟩ := hcopy
          dsimp only
          split
          · next hnone =>
              -- An empty chunk is passed over.
              have hskip : chunk.published = [] := hempty hsize hnone
              have hlater := ih (hlease.mono (List.subset_cons_self _ _)) 0
              rw [List.flatMap_cons, hskip, List.nil_append]
              refine ⟨hlater.next, List.Subset.trans hlater.unread (List.subset_cons_self _ _), ?_⟩
              intro error herror
              obtain ⟨failed, hfailed, hlease⟩ := hlater.failed error herror
              exact ⟨failed, List.mem_cons_of_mem _ hfailed, hlease⟩
          · next hsome =>
              refine ⟨?_, ?_, nofun⟩
              · intro output houtput
                cases houtput
                refine ⟨?_, hlength, fun _ hnone => absurd hnone hsome⟩
                rw [PayloadBytesReader.remaining, hchunks, ← List.append_assoc, hrest]
                rfl
              · show PayloadBytesReader.chunks _ ⊆ _
                rw [hchunks]
                exact List.subset_cons_self _ _

theorem read_reads (reader : PayloadBytesReader) {lease : Leasing} (size : Nat)
    (hlease : lease.Published reader.chunks) :
    Reads lease size reader.chunks reader.remaining (reader.read lease size) := by
  obtain ⟨hrest, hchunks, hlength, hempty⟩ := copy_spec reader size
  unfold PayloadBytesReader.read
  split
  · refine ⟨?_, List.Subset.refl _, nofun⟩
    intro output houtput
    cases houtput
    exact ⟨rfl, Nat.zero_le _, fun hsize => absurd hsize (by omega)⟩
  · next hsize =>
      have hsize : 0 < size := Nat.pos_of_ne_zero hsize
      dsimp only
      split
      · next hnone =>
          rw [PayloadBytesReader.remaining, hempty hsize hnone, List.nil_append]
          exact advance_reads hsize hlease reader.offset
      · next hsome =>
          refine ⟨?_, ?_, nofun⟩
          · intro output houtput
            cases houtput
            refine ⟨?_, hlength, fun _ hnone => absurd hnone hsome⟩
            rw [PayloadBytesReader.remaining, PayloadBytesReader.remaining, hchunks,
              ← List.append_assoc, hrest]
          · show PayloadBytesReader.chunks _ ⊆ _
            rw [hchunks]
            exact List.Subset.refl _

/-- Whatever the sizes, the reads return the bytes in order, each once. -/
theorem readAll_spec (reader : PayloadBytesReader) (reads : List (Nat × Leasing))
    (hlease : ∀ read ∈ reads, read.2.Published reader.chunks) :
    (∀ reader' outputs, reader.readAll reads = .ok (reader', outputs) →
      outputs.flatten ++ reader'.remaining = reader.remaining ∧
      List.Forall₂ (fun read output => output.length ≤ read.1) reads outputs ∧
      ((∃ read ∈ reads.zip outputs, 0 < read.1.1 ∧ read.2 = []) → reader'.remaining = [])) ∧
    ∀ error, reader.readAll reads = .error error →
      ∃ read ∈ reads, ∃ chunk ∈ reader.chunks, read.2 chunk = .error error := by
  induction reads generalizing reader with
  | nil =>
      refine ⟨?_, nofun⟩
      intro reader' outputs hread
      cases hread
      exact ⟨List.nil_append _, .nil, nofun⟩
  | cons read later ih =>
      obtain ⟨size, lease⟩ := read
      have hread : Reads lease size reader.chunks reader.remaining (reader.read lease size) :=
        read_reads reader size (hlease (size, lease) List.mem_cons_self)
      rw [PayloadBytesReader.readAll]
      rcases hresult : reader.read lease size with ⟨reader₁, outcome⟩
      rw [hresult] at hread
      cases outcome with
      | error error =>
          refine ⟨nofun, ?_⟩
          intro error' herror
          cases herror
          exact ⟨(size, lease), List.mem_cons_self, hread.failed error rfl⟩
      | ok output =>
          obtain ⟨hnext, hlength, hempty⟩ := hread.next output rfl
          obtain ⟨hrun, hfail⟩ := ih reader₁ fun read hread' =>
            (hlease read (List.mem_cons_of_mem _ hread')).mono hread.unread
          constructor
          · intro reader' outputs hall
            obtain ⟨⟨last, rest⟩, hlater, hall⟩ := Library.Stages.bind_eq_ok.mp hall
            cases hall
            obtain ⟨hflatten, hlengths, hend⟩ := hrun reader' rest hlater
            refine ⟨?_, .cons hlength hlengths, ?_⟩
            · rw [List.flatten_cons, List.append_assoc, hflatten, hnext]
            · rintro ⟨pair, hpair, hsize, hnone⟩
              rcases List.mem_cons.mp hpair with rfl | hpair
              · -- Nothing remained before the later reads, so nothing does after them.
                have hreader : output ++ reader₁.remaining = [] := hnext.trans (hempty hsize hnone)
                have hleft : reader₁.remaining = [] := (List.append_eq_nil_iff.mp hreader).2
                rw [hleft] at hflatten
                exact (List.append_eq_nil_iff.mp hflatten).2
              · exact hend ⟨pair, hpair, hsize, hnone⟩
          · intro error herror
            -- the first read went well, so a later one failed
            have hlater : reader₁.readAll later = .error error := by
              dsimp only at herror
              cases hrest : reader₁.readAll later with
              | ok rest =>
                  rw [hrest] at herror
                  cases herror
              | error failure =>
                  rw [hrest] at herror
                  cases herror
                  rfl
            obtain ⟨read, hread', chunk, hchunk, hfailed⟩ := hfail error hlater
            exact ⟨read, List.mem_cons_of_mem _ hread', chunk, hread.unread hchunk, hfailed⟩

/-! ## Taking chunks -/

/-- `take_first_chunk` -/
def PayloadBytes.takeFirstChunk (lease : Leasing) (bytes : PayloadBytes) :
    PayloadBytes × Except String (Option (List UInt8)) :=
  match bytes.chunks with
  | [] => (bytes, .ok none)
  | first :: rest =>
      match lease first with
      | .error error => (bytes, .error error)
      | .ok taken => (⟨rest, bytes.len - taken.length⟩, .ok (some taken))

/-- Chunks taken one after another; a take that fails is made again by the next. -/
def PayloadBytes.takeAll (bytes : PayloadBytes) : List Leasing → PayloadBytes × List (List UInt8)
  | [] => (bytes, [])
  | lease :: later =>
      match bytes.takeFirstChunk lease with
      | (bytes, .ok (some taken)) =>
          let rest := bytes.takeAll later
          (rest.1, taken :: rest.2)
      | (bytes, _) => bytes.takeAll later

/-- The length is that of the chunks. -/
def PayloadBytes.Measured (bytes : PayloadBytes) : Prop :=
  bytes.len = bytes.content.length

/-- What was taken and what is left are the chunks, in order. -/
theorem takeAll_spec (bytes : PayloadBytes) (takes : List Leasing)
    (hlease : ∀ lease ∈ takes, lease.Published bytes.chunks) (hlen : bytes.Measured) :
    (bytes.takeAll takes).2 ++ (bytes.takeAll takes).1.chunks.map PayloadHandle.published =
        bytes.chunks.map PayloadHandle.published ∧ (bytes.takeAll takes).1.Measured := by
  induction takes generalizing bytes with
  | nil => exact ⟨List.nil_append _, hlen⟩
  | cons lease later ih =>
      have hlater : ∀ lease ∈ later, lease.Published bytes.chunks :=
        fun lease hlater => hlease lease (List.mem_cons_of_mem _ hlater)
      rw [PayloadBytes.takeAll, PayloadBytes.takeFirstChunk]
      cases hchunks : bytes.chunks with
      | nil =>
          obtain ⟨htaken, hleft⟩ := ih bytes hlater hlen
          rw [hchunks] at htaken
          exact ⟨htaken, hleft⟩
      | cons first rest =>
          dsimp only
          cases hleased : lease first with
          | error error =>
              obtain ⟨htaken, hleft⟩ := ih bytes hlater hlen
              rw [hchunks] at htaken
              exact ⟨htaken, hleft⟩
          | ok taken =>
              obtain rfl := hlease lease List.mem_cons_self first
                (hchunks ▸ List.mem_cons_self) taken hleased
              have hmeasured : PayloadBytes.Measured
                  ⟨rest, bytes.len - first.published.length⟩ := by
                have hlen : bytes.len = bytes.content.length := hlen
                rw [PayloadBytes.content, hchunks, List.flatMap_cons, List.length_append] at hlen
                show bytes.len - first.published.length = _
                rw [hlen, Nat.add_sub_cancel_left]
                rfl
              obtain ⟨htaken, hleft⟩ := ih ⟨rest, bytes.len - first.published.length⟩
                (fun lease hin => (hlater lease hin).mono (hchunks ▸ List.subset_cons_self _ _))
                hmeasured
              refine ⟨?_, hleft⟩
              rw [List.map_cons, ← htaken]
              rfl

/-- A take whose lease fails leaves the bytes as they are. -/
theorem takeFirstChunk_error {bytes : PayloadBytes} {lease : Leasing} {error : String}
    (h : (bytes.takeFirstChunk lease).2 = .error error) : (bytes.takeFirstChunk lease).1 = bytes := by
  unfold PayloadBytes.takeFirstChunk at h ⊢
  split at h
  · cases h
  · next first rest hchunks =>
      split at h
      · rfl
      · cases h

theorem takeAll_length (bytes : PayloadBytes) (takes : List Leasing)
    (hlease : ∀ lease ∈ takes, ∀ chunk ∈ bytes.chunks, ∃ taken, lease chunk = .ok taken) :
    (bytes.takeAll takes).2.length = min takes.length bytes.chunks.length := by
  induction takes generalizing bytes with
  | nil => exact (Nat.zero_min _).symm
  | cons lease later ih =>
      have hlater : ∀ lease ∈ later, ∀ chunk ∈ bytes.chunks, ∃ taken, lease chunk = .ok taken :=
        fun lease hlater => hlease lease (List.mem_cons_of_mem _ hlater)
      rw [PayloadBytes.takeAll, PayloadBytes.takeFirstChunk]
      cases hchunks : bytes.chunks with
      | nil =>
          have hrest := ih bytes hlater
          rw [hchunks] at hrest
          exact hrest.trans (by simp)
      | cons first rest =>
          obtain ⟨taken, htaken⟩ := hlease lease List.mem_cons_self first
            (hchunks ▸ List.mem_cons_self)
          dsimp only
          rw [htaken]
          have hrest := ih ⟨rest, bytes.len - taken.length⟩ fun lease hin chunk hchunk =>
            hlater lease hin chunk (hchunks ▸ List.mem_cons_of_mem _ hchunk)
          show (PayloadBytes.takeAll _ later).2.length + 1 = _
          rw [hrest, List.length_cons, List.length_cons, Nat.add_min_add_right]

/-- The chunks of what was written hold its bytes in order, and their number is the length. Reads of
any sizes return the bytes in order, all of them once a read returns none, and fail only with a
lease. Chunks that are taken come in order, and a take that fails changes nothing. -/
theorem payloadBytes_of_writes (hhash : Function.Injective platform.hash)
    (store : PayloadStore platform)
    (writes : List ((PayloadStore platform → PayloadStore platform) × List UInt8)) :
    let bytes := ((PayloadByteWriter.withStore store).writeAll writes).finish
    let written := writes.flatMap Prod.snd
    bytes.content = written ∧ bytes.len = written.length ∧ bytes.Cut ∧
    (∀ reads : List (Nat × Leasing), (∀ read ∈ reads, read.2.OfStore platform bytes.chunks) →
      (∀ reader outputs, bytes.reader.readAll reads = .ok (reader, outputs) →
        outputs.flatten <+: written ∧
        List.Forall₂ (fun read output => output.length ≤ read.1) reads outputs ∧
        ((∃ read ∈ reads.zip outputs, 0 < read.1.1 ∧ read.2 = []) →
          outputs.flatten = written)) ∧
      ∀ error, bytes.reader.readAll reads = .error error →
        ∃ read ∈ reads, ∃ chunk ∈ bytes.chunks, read.2 chunk = .error error) ∧
    (∀ takes : List Leasing, (∀ lease ∈ takes, lease.OfStore platform bytes.chunks) →
      (bytes.takeAll takes).2 ++ (bytes.takeAll takes).1.chunks.map PayloadHandle.published =
          bytes.chunks.map PayloadHandle.published ∧
      (bytes.takeAll takes).1.len = (bytes.takeAll takes).1.content.length ∧
      ((∀ lease ∈ takes, ∀ chunk ∈ bytes.chunks, ∃ taken, lease chunk = .ok taken) →
        (bytes.takeAll takes).2.length = min takes.length bytes.chunks.length)) ∧
    ∀ (left : PayloadBytes) (lease : Leasing) error,
      (left.takeFirstChunk lease).2 = .error error → (left.takeFirstChunk lease).1 = left := by
  intro bytes written
  obtain ⟨hcontent, hlen, hcut⟩ := finish_spec store writes
  refine ⟨hcontent, hlen, hcut, ?_, ?_, fun left lease error => takeFirstChunk_error⟩
  · intro reads hreads
    obtain ⟨hrun, hfail⟩ := readAll_spec bytes.reader reads fun read hread =>
      (hreads read hread).published hhash
    refine ⟨?_, hfail⟩
    intro reader outputs hread
    obtain ⟨hflatten, hlengths, hend⟩ := hrun reader outputs hread
    have hstart : bytes.reader.remaining = written := hcontent
    rw [hstart] at hflatten
    refine ⟨⟨reader.remaining, hflatten⟩, hlengths, ?_⟩
    intro hnone
    rw [hend hnone, List.append_nil] at hflatten
    exact hflatten
  · intro takes htakes
    -- what is left keeps measuring its own length
    have hmeasured : bytes.Measured := hlen.trans (congrArg List.length hcontent).symm
    obtain ⟨htaken, hleft⟩ := takeAll_spec bytes takes
      (fun lease hlease => (htakes lease hlease).published hhash) hmeasured
    exact ⟨htaken, hleft, takeAll_length bytes takes⟩

/-- A new store, where each value gets an address above all others. -/
def freshStore : PayloadStore (plainPlatform : Platform (List UInt8) (List UInt8)) where
  world := { state := { budget := 10 } }
  reachable := .new 10
  address w := (w.allocations.map Allocation.address).foldr max 0 + 1
  free := by
    intro w
    refine ⟨?_, fun _ hrow => absurd hrow List.not_mem_nil⟩
    intro allocation hallocation
    have hle : ∀ {addresses : List Nat}, ∀ address ∈ addresses, address ≤ addresses.foldr max 0 := by
      intro addresses
      induction addresses with
      | nil => exact fun _ haddress => absurd haddress List.not_mem_nil
      | cons first rest ih =>
          intro address haddress
          rcases List.mem_cons.mp haddress with rfl | hrest
          · exact Nat.le_max_left _ _
          · exact (ih address hrest).trans (Nat.le_max_right _ _)
    exact (Nat.lt_succ_of_le (hle _ (List.mem_map_of_mem hallocation))).ne
  puts _ _ := .done

theorem payloadBytes_of_two_writes :
    let bytes := ((PayloadByteWriter.withStore freshStore).writeAll
      [(fun store => store, [1, 2, 3]), (fun store => store, [4])]).finish
    bytes.content = [1, 2, 3, 4] ∧ bytes.len = 4 := by
  obtain ⟨hcontent, hlen, -⟩ := payloadBytes_of_writes (fun _ _ heq => heq) freshStore
    [(fun store => store, [1, 2, 3]), (fun store => store, [4])]
  exact ⟨hcontent, hlen⟩

end Chronicle.Payloads
