import GeodeNative.Serialization.DataInputSafety

/-!
# Reading from a connection

`StreamDataInput` is a `DataInput` whose buffer grows: where `DataInput` throws because
the buffer ends, it receives from its connection. The methods are those of the base class.

A `StreamDataInput` holds what it has received and what its connection is going to
deliver, in chunks, each with the time that it takes; it stands for the `DataInput` over
all of these bytes (`flat`).
-/

namespace GeodeNative

open DataInput

/-! ## The stream -/

def kBufferSize : ℕ := 3000

/-- What one `receive_nothrowiftimeout` returns, and the milliseconds it takes. -/
structure Chunk where
  bytes : List (BitVec 8)
  nonempty : bytes ≠ []
  length_le : bytes.length ≤ kBufferSize
  timeSpent : ℕ

/-- A request for more bytes: the unread bytes in the buffer, and how many are needed. -/
structure ReceiveRequest where
  unread : BitVec 64
  needed : BitVec 64

/-- A `DataInput` over `streamBuf_`, with what its connection is going to deliver. -/
structure StreamDataInput where
  /-- `streamBuf_` -/
  buffer : List (BitVec 8)
  /-- `buffer_ - bufferHead_` -/
  offset : BitVec 64
  pending : List Chunk
  length_lt : (buffer ++ pending.flatMap Chunk.bytes).length < 2 ^ 64
  remainingTimeBeforeTimeout : ℤ
  /-- the requests made so far, the last one first -/
  requests : List ReceiveRequest

/-- Why a method of the stream returns no value. -/
inductive StreamError
  | read (e : ReadError)
  /-- `TimeoutException`, or the exception of a connection that ended -/
  | timeout
  deriving DecidableEq, Repr

abbrev StreamM := EStateM StreamError StreamDataInput

namespace StreamDataInput

/-- The buffer and the cursor. -/
def received (t : StreamDataInput) : DataInput where
  buffer := t.buffer
  length_lt := by
    have h := t.length_lt
    rw [List.length_append] at h
    omega
  offset := t.offset

/-- The `DataInput` over all that the connection delivers. -/
def flat (t : StreamDataInput) : DataInput where
  buffer := t.buffer ++ t.pending.flatMap Chunk.bytes
  length_lt := t.length_lt
  offset := t.offset

/-- A stream over a connection that delivers `chunks`. -/
def opened (chunks : List Chunk) (timeout : ℤ)
    (h : (chunks.flatMap Chunk.bytes).length < 2 ^ 64) : StreamDataInput where
  buffer := []
  offset := 0
  pending := chunks
  length_lt := by rwa [List.nil_append]
  remainingTimeBeforeTimeout := timeout
  requests := []

/-- `getBytesRemaining`: the difference is unsigned. -/
def getBytesRemaining (t : StreamDataInput) : BitVec 64 :=
  t.received.bufferLength - t.offset

/-- The connection has been asked for bytes. -/
def ask (t : StreamDataInput) (size : BitVec 64) : StreamDataInput :=
  { t with requests := ⟨t.getBytesRemaining, size⟩ :: t.requests }

/-- The next chunk has been received too late: its bytes are lost. -/
def lose (t : StreamDataInput) {c : Chunk} {rest : List Chunk} (h : t.pending = c :: rest) :
    StreamDataInput :=
  { t with
    pending := rest
    length_lt := by
      have hlt := t.length_lt
      rw [h, List.flatMap_cons, List.length_append, List.length_append] at hlt
      rw [List.length_append]
      omega
    remainingTimeBeforeTimeout := t.remainingTimeBeforeTimeout - c.timeSpent }

/-- The next chunk has been received: the buffer is resized and the chunk copied behind it. -/
def take (t : StreamDataInput) {c : Chunk} {rest : List Chunk} (h : t.pending = c :: rest) :
    StreamDataInput :=
  { t with
    buffer := t.buffer ++ c.bytes
    pending := rest
    length_lt := by
      have hlt := t.length_lt
      rwa [h, List.flatMap_cons, ← List.append_assoc] at hlt
    remainingTimeBeforeTimeout := t.remainingTimeBeforeTimeout - c.timeSpent }

/-- One turn of the loop of `readDataIfNotAvailable`. -/
def receive (size : BitVec 64) : StreamM Unit := do
  let t ← get
  let t := t.ask size
  match h : t.pending with
  | [] =>
    set t
    throw .timeout
  | c :: _ =>
    if t.remainingTimeBeforeTimeout - c.timeSpent ≤ 0 then
      set (t.lose h)
      throw .timeout
    else
      set (t.take h)

/-- The loop of `readDataIfNotAvailable`. A turn takes a chunk, so that their number bounds
the turns; the turn after the last one waits until the time is over. -/
def receiveLoop (size : BitVec 64) : ℕ → StreamM Unit
  | 0 => do
    let t ← get
    if t.getBytesRemaining < size then
      receive size
  | turns + 1 => do
    let t ← get
    if t.getBytesRemaining < size then
      receive size
      receiveLoop size turns

def readDataIfNotAvailable (size : BitVec 64) : StreamM Unit := do
  let t ← get
  receiveLoop size t.pending.length

/-- Code of the base class works on the buffer and the cursor. -/
def onReceived {α : Type} (m : ReadM α) : StreamM α := fun t =>
  match m.run t.received with
  | .ok a s => .ok a { t with offset := s.offset }
  | .error e s => .error (.read e) { t with offset := s.offset }

/-- `StreamDataInput`: the check receives. -/
def source : DataSource StreamError StreamDataInput where
  checkBufferSize := readDataIfNotAvailable
  input := onReceived

end StreamDataInput

end GeodeNative
