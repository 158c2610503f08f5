import Chronicle.Library.PrefixCodes

/-!
# The buffer in front of the hasher

Bytes are collected in a buffer of 4096 bytes and handed to the hasher when it is full. Whatever the
calls are, the hasher receives their bytes one after the other.
-/

namespace Chronicle.Checkpoint

open Chronicle.Library.Bytes Chronicle.Library.PrefixCodes

/-- The length of the buffer. -/
def bufferLength : Nat := 4096

/-- `FingerprintSink`: the bytes that the hasher has been updated with, and the filled part of the
buffer. -/
structure FingerprintSink where
  hashed : List UInt8
  buffer : List UInt8
  fits : buffer.length ≤ bufferLength

namespace FingerprintSink

/-- `FingerprintSink::new` -/
def new : FingerprintSink := ⟨[], [], Nat.zero_le _⟩

/-- `FingerprintSink::flush` -/
def flush (sink : FingerprintSink) : FingerprintSink :=
  if 0 < sink.buffer.length then ⟨sink.hashed ++ sink.buffer, [], Nat.zero_le _⟩ else sink

/-- The copy into the buffer behind its filled part, which must leave it within its length. -/
def copy (sink : FingerprintSink) (data : List UInt8)
    (h : sink.buffer.length + data.length ≤ bufferLength) : FingerprintSink :=
  ⟨sink.hashed, sink.buffer ++ data, by rw [List.length_append]; exact h⟩

theorem buffer_flush (sink : FingerprintSink) : sink.flush.buffer = [] := by
  unfold flush
  split
  · rfl
  · exact List.eq_nil_of_length_eq_zero (by omega)

theorem length_buffer_flush (sink : FingerprintSink) : sink.flush.buffer.length = 0 := by
  rw [buffer_flush]
  rfl

/-- `FingerprintSink::write` -/
def write (sink : FingerprintSink) (data : List UInt8) : FingerprintSink :=
  if hlarge : data.length ≥ bufferLength then
    let sink := sink.flush
    { sink with hashed := sink.hashed ++ data }
  else if hfull : sink.buffer.length + data.length > bufferLength then
    sink.flush.copy data (by rw [length_buffer_flush]; omega)
  else sink.copy data (by omega)

/-- `FingerprintSink::tag` -/
def tag (sink : FingerprintSink) (tag : UInt8) : FingerprintSink :=
  if hfull : sink.buffer.length = bufferLength then
    sink.flush.copy [tag] (by rw [length_buffer_flush]; exact Nat.le_of_ble_eq_true rfl)
  else sink.copy [tag] (Nat.lt_of_le_of_ne sink.fits hfull)

/-- `FingerprintSink::frame` -/
def frame (sink : FingerprintSink) (tag : UInt8) (data : List UInt8) : FingerprintSink :=
  ((sink.tag tag).write (leBytes 8 data.length)).write data

/-- `FingerprintSink::finish`, before the digest: the bytes that the hasher has received. -/
def finish (sink : FingerprintSink) : List UInt8 := sink.flush.hashed

/-- The bytes of all calls so far. -/
def received (sink : FingerprintSink) : List UInt8 := sink.hashed ++ sink.buffer

variable (sink : FingerprintSink) (data : List UInt8) (t : UInt8)

@[simp]
theorem received_flush : sink.flush.received = sink.received := by
  unfold flush
  split
  · simp [received]
  · rfl

@[simp]
theorem received_copy (h : sink.buffer.length + data.length ≤ bufferLength) :
    (sink.copy data h).received = sink.received ++ data :=
  (List.append_assoc ..).symm

@[simp]
theorem received_write : (sink.write data).received = sink.received ++ data := by
  unfold write
  split
  · have hflushed : sink.flush.hashed = sink.received := by
      rw [← received_flush, received, buffer_flush, List.append_nil]
    simp [received, buffer_flush, hflushed]
  · split <;> simp

@[simp]
theorem received_tag : (sink.tag t).received = sink.received ++ [t] := by
  unfold tag
  split <;> simp

@[simp]
theorem received_frame : (sink.frame t data).received = sink.received ++ t :: counted data := by
  simp [frame, counted]

theorem finish_eq : sink.finish = sink.received := by
  rw [finish, ← received_flush, received, buffer_flush, List.append_nil]

end FingerprintSink

/-- A call on the sink. -/
inductive SinkCall where
  | tag (tag : UInt8)
  | write (data : List UInt8)
  | frame (tag : UInt8) (data : List UInt8)
deriving DecidableEq

/-- The sink after a call. -/
def SinkCall.run (sink : FingerprintSink) : SinkCall → FingerprintSink
  | .tag t => sink.tag t
  | .write data => sink.write data
  | .frame t data => sink.frame t data

/-- The bytes of a call: its tag, the length of a frame, its data. -/
def SinkCall.bytes : SinkCall → List UInt8
  | .tag t => [t]
  | .write data => data
  | .frame t data => t :: counted data

theorem SinkCall.received_run (call : SinkCall) (sink : FingerprintSink) :
    (call.run sink).received = sink.received ++ call.bytes := by
  cases call <;> simp [run, bytes]

/-- The bytes that reach the hasher from a sequence of calls. -/
def hashedBytes (calls : List SinkCall) : List UInt8 :=
  (calls.foldl SinkCall.run .new).finish

theorem received_run_calls (calls : List SinkCall) (sink : FingerprintSink) :
    (calls.foldl SinkCall.run sink).received = sink.received ++ calls.flatMap SinkCall.bytes := by
  induction calls generalizing sink with
  | nil => rw [List.flatMap_nil, List.append_nil, List.foldl_nil]
  | cons call calls ih =>
    rw [List.foldl_cons, ih, SinkCall.received_run, List.flatMap_cons, List.append_assoc]

/-- However the calls fall into the buffer, their bytes reach the hasher in order. -/
theorem hashedBytes_eq (calls : List SinkCall) :
    hashedBytes calls = calls.flatMap SinkCall.bytes := by
  rw [hashedBytes, FingerprintSink.finish_eq, received_run_calls]
  rfl

end Chronicle.Checkpoint
