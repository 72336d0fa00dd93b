import Mathlib.Algebra.Order.Group.Int
import ChainReplication.Library.LittleEndian

/-!
# Frames

How a message travels: `message.cc` puts the size of the serialized message before it. A connection
is read by `TCPLoop::session` and a datagram by `decode_msg`, which are written separately. The
protobuf library is a parameter.
-/

namespace ChainReplication

/-- The generated class `proto::Message` with the library that reads and writes it. -/
structure Protobuf (M : Type*) where
  /-- A message none of whose fields is set. -/
  empty : M
  serialize : M → List UInt8
  /-- The message that the bytes encode, if they are well formed and complete. -/
  parse : List UInt8 → Option M
  /-- What a failed parse leaves in the message. -/
  leftover : List UInt8 → M
  /-- The bytes that an `ArrayInputStream` yields. -/
  arrayInputStream : List UInt8 → ℤ → List UInt8
  /-- `CodedInputStream::ReadLittleEndian32`: the number and the rest of the stream. -/
  readLittleEndian32 : List UInt8 → Option (ℕ × List UInt8)
  /-- `CodedInputStream::PushLimit`: what may still be read. -/
  pushLimit : List UInt8 → ℤ → List UInt8
  /-- The bytes that `CodedOutputStream::WriteLittleEndian32` writes. -/
  writeLittleEndian32 : ℕ → List UInt8

/-- What the library says of its streams. -/
structure Protobuf.Documented {M : Type*} (p : Protobuf M) : Prop where
  arrayInputStream : ∀ buf size, 0 ≤ size → p.arrayInputStream buf size = buf.take size.toNat
  arrayInputStream_neg : ∀ buf size, size < 0 → p.arrayInputStream buf size = []
  readLittleEndian32 : ∀ stream : List UInt8, 4 ≤ stream.length →
    p.readLittleEndian32 stream = some (LittleEndian.value (stream.take 4), stream.drop 4)
  readLittleEndian32_short : ∀ stream : List UInt8, stream.length < 4 → p.readLittleEndian32 stream = none
  pushLimit : ∀ stream limit, 0 ≤ limit → p.pushLimit stream limit = stream.take limit.toNat
  writeLittleEndian32 : ∀ n < 2 ^ 32, p.writeLittleEndian32 n = LittleEndian.bytes 4 n

/-- `MSG_HEADER_SIZE`. -/
def msgHeaderSize : ℕ := 4

/-- A number converted to `uint32_t`. -/
def toUint32 (n : ℕ) : ℕ := n % 2 ^ 32

/-- A `uint32_t` converted to `int`. -/
def toInt (n : ℕ) : ℤ := if n < 2 ^ 31 then n else n - 2 ^ 32

namespace Protobuf

variable {M : Type*} (p : Protobuf M)

/-- `decode_hdr`. -/
def decodeHdr (buf : List UInt8) : ℕ :=
  match p.readLittleEndian32 (p.arrayInputStream buf msgHeaderSize) with
  | none => 0
  | some (msgSize, _) => msgSize

/-- `Message::ParseFromCodedStream`: its result, and what the message holds afterwards. -/
def parseFromCodedStream (stream : List UInt8) : Bool × M :=
  match p.parse stream with
  | some msg => (true, msg)
  | none => (false, p.leftover stream)

/-- `encode_msg`: its result and the bytes written to the buffer. -/
def encodeMsg (msg : M) (bufSize : ℕ) : Bool × List UInt8 :=
  let body := p.serialize msg
  let out := p.writeLittleEndian32 (toUint32 body.length) ++ body
  (decide (out.length ≤ bufSize), out.take bufSize)

/-- `decode_body`. -/
def decodeBody (buf : List UInt8) (bufSize : ℕ) : Bool × M :=
  p.parseFromCodedStream (p.pushLimit (p.arrayInputStream buf (toInt bufSize)) (toInt bufSize))

/-- `decode_msg`, `none` when the assertion fails. -/
def decodeMsg (msg : M) (buf : List UInt8) (bufSize : ℕ) : Option (Bool × M) :=
  match p.readLittleEndian32 (p.arrayInputStream buf (toInt bufSize)) with
  | none => some (false, msg)
  | some (msgSize, stream) =>
    if bufSize = toUint32 (msgSize + msgHeaderSize) then
      if bufSize < toUint32 (msgSize + msgHeaderSize) then some (false, msg)
      else some (p.parseFromCodedStream (p.pushLimit stream (toInt msgSize)))
    else none

/-- `TCPLoop::session`: the message passed to `handle_msg`, if the connection brings one. -/
def session (sock : List UInt8) : Option M :=
  let header := sock.take msgHeaderSize
  if header.length < msgHeaderSize then none
  else
    let bodySize := p.decodeHdr header
    let body := (sock.drop msgHeaderSize).take bodySize
    if body.length < bodySize then none
    -- the result of `decode_body` is not looked at
    else some (p.decodeBody body bodySize).2

/-- What `decode_msg` makes of a whole buffer, as `UDPLoop::run_forever` calls it. -/
def received (data : List UInt8) : Option (Bool × M) :=
  p.decodeMsg p.empty data (toUint32 data.length)

/-- The bytes that `send_msg_tcp` and `send_msg_udp` write for a message. -/
def frame (msg : M) : List UInt8 :=
  (p.encodeMsg msg ((p.serialize msg).length + msgHeaderSize)).2

end Protobuf

/-- A header and a body of exactly the length that the header states. -/
structure Frame where
  header : List UInt8
  body : List UInt8
  header_length : header.length = msgHeaderSize
  value_header : LittleEndian.value header = body.length

namespace Frame

/-- The byte string. -/
def bytes (b : Frame) : List UInt8 := b.header ++ b.body

/-- The frame that is written around a body. -/
def ofBody (body : List UInt8) (h : body.length < 2 ^ 32) : Frame where
  header := LittleEndian.bytes 4 body.length
  body := body
  header_length := LittleEndian.length_bytes 4 _
  value_header := LittleEndian.value_bytes (by norm_num at h ⊢; exact h)

/-- The two readers agree: what `session` dispatches is what `decode_msg` accepts. -/
def Agrees {M : Type*} (p : Protobuf M) (b : Frame) : Prop :=
  ∀ m, p.session b.bytes = some m ↔ p.received b.bytes = some (true, m)

variable (b : Frame)

lemma body_length_lt : b.body.length < 2 ^ 32 := by
  have h := LittleEndian.value_lt b.header
  rw [b.value_header, b.header_length] at h
  norm_num [msgHeaderSize] at h ⊢
  exact h

lemma bytes_length : b.bytes.length = b.body.length + 4 := by
  simp [bytes, b.header_length, msgHeaderSize]
  omega

lemma take_bytes : b.bytes.take 4 = b.header := by
  rw [bytes, List.take_left' (by rw [b.header_length, msgHeaderSize])]

lemma drop_bytes : b.bytes.drop 4 = b.body := by
  rw [bytes, List.drop_left' (by rw [b.header_length, msgHeaderSize])]

end Frame

lemma toUint32_of_lt {n : ℕ} (h : n < 2 ^ 32) : toUint32 n = n := by
  exact Nat.mod_eq_of_lt h

lemma toInt_of_lt {n : ℕ} (h : n < 2 ^ 31) : toInt n = n := by
  rw [toInt, if_pos h]

lemma toInt_neg_of_le {n : ℕ} (h : 2 ^ 31 ≤ n) (h' : n < 2 ^ 32) : toInt n < 0 := by
  rw [toInt, if_neg (by omega)]
  omega

namespace Protobuf

variable {M : Type*} {p : Protobuf M}

section Documented

variable (hp : p.Documented)
include hp

lemma arrayInputStream_of_lt {buf : List UInt8} (h : buf.length < 2 ^ 31) :
    p.arrayInputStream buf (toInt buf.length) = buf := by
  rw [toInt_of_lt h, hp.arrayInputStream _ _ (Int.natCast_nonneg _)]
  simp

/-- A limit at the end of the stream changes nothing. -/
lemma pushLimit_of_lt {stream : List UInt8} (h : stream.length < 2 ^ 31) :
    p.pushLimit stream (toInt stream.length) = stream := by
  rw [toInt_of_lt h, hp.pushLimit _ _ (Int.natCast_nonneg _)]
  simp

/-- Reading a frame's first word gives the length of its body. -/
lemma readLittleEndian32_bytes (b : Frame) : p.readLittleEndian32 b.bytes = some (b.body.length, b.body) := by
  have hlen := b.bytes_length
  rw [hp.readLittleEndian32 _ (by omega), b.take_bytes, b.drop_bytes, b.value_header]

lemma decodeHdr_header (b : Frame) : p.decodeHdr b.header = b.body.length := by
  have hlen : b.header.length = 4 := b.header_length
  have htake : b.header.take 4 = b.header := List.take_of_length_le (by omega)
  have hstream : p.arrayInputStream b.header msgHeaderSize = b.header := by
    rw [hp.arrayInputStream _ _ (Int.natCast_nonneg _), Int.toNat_natCast]
    exact htake
  rw [decodeHdr, hstream, hp.readLittleEndian32 _ (by omega), htake]
  exact b.value_header

end Documented

variable (p)

lemma parseFromCodedStream_of_parse {stream : List UInt8} {m : M} (h : p.parse stream = some m) :
    p.parseFromCodedStream stream = (true, m) := by
  rw [parseFromCodedStream, h]

lemma parseFromCodedStream_eq_true {stream : List UInt8} {m : M} :
    p.parseFromCodedStream stream = (true, m) ↔ p.parse stream = some m := by
  rw [parseFromCodedStream]
  cases p.parse stream <;> simp

section Documented

variable {p} (hp : p.Documented)
include hp

lemma decodeBody_of_lt {buf : List UInt8} (h : buf.length < 2 ^ 31) :
    p.decodeBody buf buf.length = p.parseFromCodedStream buf := by
  rw [decodeBody, arrayInputStream_of_lt hp h, pushLimit_of_lt hp h]

/-- A connection that brings a frame dispatches a message, whatever the body holds. -/
lemma session_bytes (b : Frame) :
    p.session b.bytes = some (p.decodeBody b.body b.body.length).2 := by
  have hheader : b.bytes.take msgHeaderSize = b.header := b.take_bytes
  have hbody : b.bytes.drop msgHeaderSize = b.body := b.drop_bytes
  simp only [session, hheader, hbody, decodeHdr_header hp, List.take_length, b.header_length,
    lt_irrefl, if_false]

/-- `decode_msg` parses the body of a frame that fits an `int`, -/
lemma received_bytes (b : Frame) (h : b.body.length < 2 ^ 31 - 4) :
    p.received b.bytes = some (p.parseFromCodedStream b.body) := by
  have hlen := b.bytes_length
  have hsize : toUint32 b.bytes.length = b.bytes.length := toUint32_of_lt (by omega)
  have hmsg : toUint32 (b.body.length + msgHeaderSize) = b.bytes.length := by
    rw [msgHeaderSize, ← hlen, hsize]
  have hstream : p.arrayInputStream b.bytes (toInt b.bytes.length) = b.bytes :=
    arrayInputStream_of_lt hp (by omega)
  have hlimit : p.pushLimit b.body (toInt b.body.length) = b.body := pushLimit_of_lt hp (by omega)
  simp only [received, hsize, decodeMsg, hstream, readLittleEndian32_bytes hp, hmsg, lt_irrefl,
    if_true, if_false, hlimit]

/-- and cannot read the header of a longer one: its length is negative as an `int`, or has wrapped
to less than four. -/
lemma received_bytes_of_le (b : Frame) (h : 2 ^ 31 - 4 ≤ b.body.length) :
    p.received b.bytes = some (false, p.empty) := by
  have hlen := b.bytes_length
  have hbody := b.body_length_lt
  have hstream : (p.arrayInputStream b.bytes (toInt (toUint32 b.bytes.length))).length < 4 := by
    rcases Nat.lt_or_ge b.bytes.length (2 ^ 32) with hfits | hwraps
    · rw [toUint32_of_lt hfits, hp.arrayInputStream_neg _ _ (toInt_neg_of_le (by omega) hfits)]
      simp
    · have hsize : toUint32 b.bytes.length < 4 := by
        unfold toUint32
        omega
      rw [toInt_of_lt (by omega), hp.arrayInputStream _ _ (Int.natCast_nonneg _), List.length_take]
      omega
  simp only [received, decodeMsg, hp.readLittleEndian32_short _ hstream]

/-- The frame of a message is its serialization behind its length. -/
lemma frame_eq (m : M) (h : (p.serialize m).length < 2 ^ 32) :
    p.frame m = (Frame.ofBody (p.serialize m) h).bytes := by
  have hwrite : p.writeLittleEndian32 (toUint32 (p.serialize m).length) =
      LittleEndian.bytes 4 (p.serialize m).length := by
    rw [toUint32_of_lt h]
    exact hp.writeLittleEndian32 _ h
  simp [frame, encodeMsg, hwrite, Frame.bytes, Frame.ofBody, msgHeaderSize, Nat.add_comm]

end Documented

end Protobuf

/-- The two readers agree on a frame exactly when `decode_msg` can count its bytes and the body
parses: `session` dispatches every frame, also one whose body `decode_body` has rejected. -/
lemma Frame.agrees_iff {M : Type*} {p : Protobuf M} (hp : p.Documented) (b : Frame) :
    b.Agrees p ↔ b.body.length < 2 ^ 31 - 4 ∧ (p.parse b.body).isSome := by
  rw [Frame.Agrees, Protobuf.session_bytes hp]
  rcases Nat.lt_or_ge b.body.length (2 ^ 31 - 4) with hlt | hge
  · rw [Protobuf.received_bytes hp b hlt, Protobuf.decodeBody_of_lt hp (by omega)]
    simp only [hlt, true_and, Option.some.injEq, p.parseFromCodedStream_eq_true]
    constructor
    · intro h
      rw [(h _).mp rfl]
      rfl
    · intro h m
      obtain ⟨m', hm'⟩ := Option.isSome_iff_exists.mp h
      rw [p.parseFromCodedStream_of_parse hm', hm', Option.some.injEq]
  · rw [Protobuf.received_bytes_of_le hp b hge]
    constructor
    · intro h
      cases (h _).mp rfl
    · rintro ⟨hlt, -⟩
      omega

/-- The two readers agree on a frame exactly when `decode_msg` can count its bytes and the body
parses, and both read back the frame of a message. -/
theorem Protobuf.frames_agree {M : Type*} (p : Protobuf M) (hp : p.Documented) :
    (∀ b : Frame, b.Agrees p ↔ b.body.length < 2 ^ 31 - 4 ∧ (p.parse b.body).isSome) ∧
      ∀ m, p.parse (p.serialize m) = some m → (p.serialize m).length < 2 ^ 31 - 4 →
        p.session (p.frame m) = some m ∧ p.received (p.frame m) = some (true, m) := by
  refine ⟨Frame.agrees_iff hp, fun m hparse hlen => ?_⟩
  have hframe := frame_eq hp m (by omega)
  have hbody : (Frame.ofBody (p.serialize m) (by omega)).body = p.serialize m := rfl
  have hreceived : p.received (p.frame m) = some (true, m) := by
    rw [hframe, received_bytes hp _ (by rw [hbody]; exact hlen), hbody,
      p.parseFromCodedStream_of_parse hparse]
  have hagrees : (Frame.ofBody (p.serialize m) (by omega)).Agrees p := by
    rw [Frame.agrees_iff hp, hbody, hparse]
    exact ⟨hlen, rfl⟩
  rw [hframe] at hreceived ⊢
  exact ⟨(hagrees m).mpr hreceived, hreceived⟩

/-- Messages that carry nothing but their type, the required field. -/
def typeOnly : Protobuf (Option UInt8) where
  empty := none
  serialize
    | none => []
    | some type => [8, type]
  parse
    | [8, type] => if type ≤ 16 then some (some type) else none
    | _ => none
  leftover _ := none
  arrayInputStream buf size := buf.take size.toNat
  readLittleEndian32 stream :=
    if stream.length < 4 then none else some (LittleEndian.value (stream.take 4), stream.drop 4)
  pushLimit stream limit := if 0 ≤ limit then stream.take limit.toNat else stream
  writeLittleEndian32 n := LittleEndian.bytes 4 n

lemma typeOnly_documented : typeOnly.Documented where
  arrayInputStream _ _ _ := rfl
  arrayInputStream_neg buf size h := by
    show buf.take size.toNat = []
    rw [Int.toNat_of_nonpos h.le, List.take_zero]
  readLittleEndian32 _ h := if_neg (by omega)
  readLittleEndian32_short _ h := if_pos h
  pushLimit _ _ h := if_pos h
  writeLittleEndian32 _ _ := rfl

/-- `TO_BE_HEAD`. -/
theorem Protobuf.frames_agree_sample :
    typeOnly.session (typeOnly.frame (some 4)) = some (some 4) ∧
      typeOnly.received (typeOnly.frame (some 4)) = some (true, some 4) :=
  (typeOnly.frames_agree typeOnly_documented).2 (some 4) (by decide) (by decide)

/-- A frame whose body is a tag that breaks off. -/
def malformed : Frame := Frame.ofBody [255] (by decide)

/-- `session` dispatches the malformed frame, with a message whose type is unset. -/
theorem malformed_not_agrees : ¬ malformed.Agrees typeOnly := by
  intro h
  have hsession : typeOnly.session malformed.bytes = some none := by decide
  cases (h none).mp hsession

end ChainReplication
