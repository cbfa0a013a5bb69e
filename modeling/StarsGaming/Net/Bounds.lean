import StarsGaming.Net.Framing

/-!
# Bounds of the TCP buffers

Both buffers of a session have room for a frame of `msgBufSize` bytes behind
the prefix.  Lengths travel as unsigned words but are checked as `int`, so
that a length with its top bit set passes for a negative one.
-/

namespace StarsGaming.Net

open Foundation

variable {P : Protobuf}

def Inside (range : Nat × Nat) : Prop :=
  range.1 + range.2 ≤ msgBufSize + headLenSize

instance (range : Nat × Nat) : Decidable (Inside range) :=
  inferInstanceAs (Decidable (_ ≤ _))

/-! ## Reads -/

/--
The bytes of a read do no harm: a prefix below `2 ^ 31`, and a header which,
if it is accepted at all, names a length that is not negative and does not
carry the length of the frame past `2 ^ 31`.
-/
def Harmless (host : Host P) (s : TcpSession P) (bytes : List Byte) : Prop :=
  match s.reading with
  | some .headLen =>
      (ntoh32 host.bigEndian (loadWord host.bigEndian bytes)).toNat < 2 ^ 31
  | some (.head size) =>
      ∀ header buf,
        TcpSession.decodeHeader (P := P)
          (s.fill (.head size) bytes).recvMsgBuf = some (header, buf) →
        0 ≤ header.length.toInt ∧
          headLenSize + size + header.length.toInt < 2 ^ 31
  | _ => True

def ReadsInside (host : Host P) (mem : Memory) (chunks : List (List Byte)) :
    Prop :=
  ∀ range ∈ (chunks.foldl (receiver host).feed
    ((TcpSession.new mem).doReadHeadLen, [])).1.issued, Inside range

/-! ### One read -/

theorem sizeOfInt_of_neg {n : Int} (h : n < 0) (hlt : -2 ^ 31 ≤ n) :
    msgBufSize + headLenSize < sizeOfInt n := by
  rw [sizeOfInt, msgBufSize, headLenSize]
  omega

theorem sizeOfInt_of_nonneg {n : Int} (h : 0 ≤ n) (hlt : n < 2 ^ 31) :
    (sizeOfInt n : Int) = n := by
  rw [sizeOfInt]
  omega

namespace TcpSession

variable {host : Host P} {s : TcpSession P} {bytes : List Byte}

@[simp] theorem issued_doClose (s : TcpSession P) :
    s.doClose.issued = s.issued := by
  rw [doClose]
  split <;> rfl

theorem readDone_cases (host : Host P) (bytes : List Byte) {r : AsyncRead}
    (hr : s.reading = some r) :
    ((s.readDone host bytes).reading = none ∧
      (s.readDone host bytes).issued = s.issued) ∨
    ∃ r', (s.readDone host bytes).reading = some r' ∧
      (s.readDone host bytes).issued = (r'.offset, r'.size) :: s.issued ∧
      ∀ size, r' = .head size →
        size = sizeOfInt (s.readDone host bytes).recvMsgBuf.headerLength := by
  rw [readDone, hr]
  cases r with
  | headLen =>
      simp only [onRead, onReadHeadLenComplete, Bool.false_eq_true, if_false,
        doReadHead]
      split
      · exact .inl ⟨by simp [fill], by simp [fill]⟩
      · refine .inr ⟨_, rfl, rfl, ?_⟩
        intro size hsize
        cases hsize
        rfl
  | head size =>
      simp only [onRead, onReadHeadComplete, Bool.false_eq_true, if_false,
        doReadBody]
      split
      · exact .inl ⟨by simp [fill], by simp [fill]⟩
      · refine .inr ⟨_, rfl, rfl, ?_⟩
        intro size' hsize
        cases hsize
  | body offset size =>
      simp only [onRead, onReadComplete, Bool.false_eq_true, if_false]
      split
      · refine .inr ⟨_, rfl, rfl, ?_⟩
        intro size' hsize
        cases hsize
      · exact .inl ⟨by simp [fill], by simp [fill]⟩

theorem issued_subset_readDone (host : Host P) (bytes : List Byte)
    {r : AsyncRead} (hr : s.reading = some r) :
    s.issued ⊆ (s.readDone host bytes).issued := by
  rcases readDone_cases host bytes hr with ⟨_, h⟩ | ⟨r', _, h, _⟩
  · exact h ▸ List.Subset.refl _
  · exact h ▸ List.subset_cons_self _ _

def Linked (s : TcpSession P) : Prop :=
  ∀ size, s.reading = some (.head size) →
    size = sizeOfInt s.recvMsgBuf.headerLength ∧
      (headLenSize, size) ∈ s.issued

theorem linked_readDone (host : Host P) (bytes : List Byte)
    {r : AsyncRead} (hr : s.reading = some r) :
    (s.readDone host bytes).Linked := by
  intro size hsize
  rcases readDone_cases host bytes hr with ⟨h, _⟩ | ⟨r', h, hissued, hhead⟩
  · cases h.symm.trans hsize
  · cases h.symm.trans hsize
    refine ⟨hhead size rfl, ?_⟩
    rw [hissued]
    exact List.mem_cons_self

theorem decodeHeader_eq_some {buf buf' : MsgBuffer} {header : Header}
    (h : decodeHeader (P := P) buf = some (header, buf')) :
    buf' = { buf with mMsgLength := header.length } ∧
      buf'.bufferLength ≤ msgBufSize := by
  simp only [decodeHeader, MsgBuffer.decodeHeader, Option.bind_eq_bind,
    Option.bind_eq_some_iff, Option.map_eq_some_iff, Prod.exists] at h
  obtain ⟨header', buf'', ⟨_, _, hbuf⟩, h⟩ := h
  cases hbuf
  split at h
  · cases h
  · split at h
    · cases h
    · cases h
      exact ⟨rfl, by omega⟩

theorem inside_readDone_headLen (hr : s.reading = some .headLen)
    (hlen : bytes.length = headLenSize) (hin : ∀ range ∈ s.issued, Inside range) :
    (∀ range ∈ (s.readDone host bytes).issued, Inside range) ↔
      Harmless host s bytes := by
  have hread : (s.recvMsgBuf.mBuffer.write 0 bytes).read 0 headLenSize =
      bytes := by
    rw [← hlen]
    exact Memory.read_write _ _ _
  simp only [Harmless, hr, readDone, onRead, onReadHeadLenComplete,
    Bool.false_eq_true, if_false, doReadHead, fill, AsyncRead.offset,
    MsgBuffer.decodeHeaderLength, MsgBuffer.headerLength, hread]
  generalize ntoh32 host.bigEndian (loadWord host.bigEndian bytes) = w
  have hint := w.toInt_eq_toNat_cond
  have hlt := w.isLt
  split
  next hbig =>
    rw [issued_doClose]
    refine iff_of_true hin ?_
    split at hint <;> omega
  next hsmall =>
    have hcons : (∀ range ∈ (headLenSize, sizeOfInt w.toInt) :: s.issued,
        Inside range) ↔ Inside (headLenSize, sizeOfInt w.toInt) := by
      rw [List.forall_mem_cons]
      exact and_iff_left hin
    refine Iff.trans hcons ?_
    rw [Inside]
    by_cases hpos : w.toNat < 2 ^ 31
    · rw [if_pos (by omega)] at hint
      have hsize := sizeOfInt_of_nonneg (n := w.toInt) (by omega) (by omega)
      exact iff_of_true (by simp only; omega) hpos
    · rw [if_neg (by omega)] at hint
      have hsize := sizeOfInt_of_neg (n := w.toInt) (by omega) (by omega)
      exact iff_of_false (by simp only; omega) hpos

/--
With the frame's length below the limit as an `int`, a body lies in the buffer
if and only if the sum did not wrap around.
-/
theorem bodyLength_iff {buf : MsgBuffer}
    (hlength : buf.bufferLength ≤ msgBufSize)
    (hhead : sizeOfInt buf.headerLength ≤ msgBufSize) :
    headLenSize + buf.mHeaderLength.toNat + sizeOfInt buf.bodyLength ≤
        msgBufSize + headLenSize ↔
      0 ≤ buf.bodyLength ∧
        headLenSize + (sizeOfInt buf.headerLength : Int) + buf.bodyLength <
          2 ^ 31 := by
  have hnat := buf.mHeaderLength.isLt
  have hnat' := buf.mMsgLength.isLt
  rw [MsgBuffer.bufferLength, BitVec.toInt_eq_toNat_cond, BitVec.toNat_add,
    BitVec.toNat_add, BitVec.toNat_ofNat] at hlength
  rw [MsgBuffer.bodyLength, MsgBuffer.headerLength,
    BitVec.toInt_eq_toNat_cond, BitVec.toInt_eq_toNat_cond] at *
  rw [sizeOfInt] at *
  rw [sizeOfInt]
  simp only [msgBufSize, headLenSize] at *
  split_ifs at * <;> omega

theorem inside_readDone_head {size : Nat} (hr : s.reading = some (.head size))
    (hlinked : s.Linked) (hin : ∀ range ∈ s.issued, Inside range) :
    (∀ range ∈ (s.readDone host bytes).issued, Inside range) ↔
      Harmless host s bytes := by
  obtain ⟨hsize, hmem⟩ := hlinked size hr
  have hinside : headLenSize + size ≤ msgBufSize + headLenSize :=
    hin _ hmem
  simp only [Harmless, hr, readDone, onRead, onReadHeadComplete,
    Bool.false_eq_true, if_false, doReadBody]
  cases hdecode : decodeHeader (P := P)
      (s.fill (.head size) bytes).recvMsgBuf with
  | none =>
      rw [issued_doClose]
      refine iff_of_true hin ?_
      intro header buf haccepted
      cases haccepted
  | some accepted =>
      obtain ⟨header, buf⟩ := accepted
      obtain ⟨rfl, hlength⟩ := decodeHeader_eq_some hdecode
      have hcons : (∀ range ∈ (headLenSize + s.recvMsgBuf.mHeaderLength.toNat,
          sizeOfInt header.length.toInt) :: s.issued, Inside range) ↔
          headLenSize + s.recvMsgBuf.mHeaderLength.toNat +
            sizeOfInt header.length.toInt ≤ msgBufSize + headLenSize := by
        rw [List.forall_mem_cons]
        exact and_iff_left hin
      refine Iff.trans hcons ?_
      have hhead : sizeOfInt s.recvMsgBuf.headerLength ≤ msgBufSize := by
        omega
      have hiff := bodyLength_iff hlength hhead
      refine Iff.trans hiff ?_
      change 0 ≤ header.length.toInt ∧
        headLenSize + (sizeOfInt s.recvMsgBuf.headerLength : Int) +
          header.length.toInt < 2 ^ 31 ↔ _
      rw [← hsize]
      constructor
      · intro h header' buf' heq
        cases heq
        exact h
      · intro h
        exact h _ _ rfl

/-- The bytes of a read are harmless if and only if the next read is. -/
theorem inside_readDone (host : Host P) {r : AsyncRead}
    (hr : s.reading = some r)
    (hlen : bytes.length = r.size) (hlinked : s.Linked)
    (hin : ∀ range ∈ s.issued, Inside range) :
    (∀ range ∈ (s.readDone host bytes).issued, Inside range) ↔
      Harmless host s bytes := by
  cases r with
  | headLen => exact inside_readDone_headLen hr hlen hin
  | head size => exact inside_readDone_head hr hlinked hin
  | body offset size =>
      simp only [Harmless, hr, readDone, onRead, onReadComplete,
        Bool.false_eq_true, if_false, iff_true]
      split
      · exact List.forall_mem_cons.mpr ⟨by decide, hin⟩
      · rw [issued_doClose]
        exact hin

end TcpSession

/-! ### Every read -/

theorem receiver_want_eq_some {host : Host P} {s : TcpSession P} {n : Nat}
    (h : (receiver host).want s = some n) :
    ∃ r, s.reading = some r ∧ r.size = n := by
  simp only [receiver] at h
  split at h
  · exact Option.map_eq_some_iff.mp h
  · cases h

theorem issued_subset_drain (host : Host P) (s : TcpSession P)
    (inbox : List Byte) :
    s.issued ⊆ ((receiver host).drain s inbox).1.issued := by
  induction s, inbox using Feeder.drain_induction (F := receiver host) with
  | stop s inbox h => rw [h.drain]; exact List.Subset.refl _
  | more s inbox n hwant hn ih =>
      obtain ⟨r, hr, rfl⟩ := receiver_want_eq_some hwant
      rw [Feeder.drain_of_enough hwant hn]
      exact List.Subset.trans
        (TcpSession.issued_subset_readDone host _ hr) ih

theorem inside_drain {host : Host P} {s : TcpSession P} {inbox : List Byte}
    (hlinked : s.Linked) (hin : ∀ range ∈ s.issued, Inside range) :
    (∀ range ∈ ((receiver host).drain s inbox).1.issued, Inside range) ↔
      ∀ t bytes, (receiver host).Takes s inbox t bytes →
        Harmless host t bytes := by
  induction s, inbox using Feeder.drain_induction (F := receiver host) with
  | stop s inbox h =>
      rw [h.drain]
      exact iff_of_true hin fun t bytes ht => absurd ht h.not_takes
  | more s inbox n hwant hn ih =>
      obtain ⟨r, hr, rfl⟩ := receiver_want_eq_some hwant
      have hstep := TcpSession.inside_readDone host hr
        (List.length_take_of_le hn) hlinked hin
      rw [Feeder.drain_of_enough hwant hn, Feeder.forall_takes hwant hn,
        ← hstep]
      constructor
      · intro h
        have hfirst := fun range hmem => h range
          (issued_subset_drain host _ _ hmem)
        exact ⟨hfirst,
          (ih (TcpSession.linked_readDone host _ hr) hfirst).mp h⟩
      · rintro ⟨hfirst, hlater⟩
        exact (ih (TcpSession.linked_readDone host _ hr) hfirst).mpr hlater

theorem readsInside_iff (host : Host P) (mem : Memory)
    (chunks : List (List Byte)) :
    ReadsInside host mem chunks ↔
      ∀ t bytes, (receiver host).Takes (TcpSession.new mem).doReadHeadLen
        chunks.flatten t bytes → Harmless host t bytes := by
  have hready : (TcpSession.new (P := P) mem).doReadHeadLen.Ready :=
    ⟨rfl, rfl⟩
  rw [ReadsInside, ← hready.drain_nil host, Feeder.foldl_feed,
    List.nil_append]
  apply inside_drain
  · intro size hsize
    cases hsize
  · exact List.forall_mem_singleton.mpr (by decide)

/-! ## Writes -/

def WritesInside (bigEndian : Bool) (msg : TcpMsg P) (mem : Memory) : Prop :=
  ∀ range ∈ (encode bigEndian msg (.new mem)).2.2.stored, Inside range

/--
The header and the body fit behind the prefix, apart from a part that is not
written at all because it is larger than two gigabytes.
-/
def SendFits (msg : TcpMsg P) : Prop :=
  2 ^ 31 ≤ (headerBytes msg).length ∨
    (headerBytes msg).length ≤ msgBufSize ∧
      (2 ^ 31 ≤ msg.pbmessage.bytes.length ∨
        (headerBytes msg).length + msg.pbmessage.bytes.length ≤ msgBufSize)

theorem stored_encodeHeaderLength (bigEndian : Bool) (length : BitVec 32)
    (mem : Memory) :
    ((MsgBuffer.new mem).encodeHeaderLength bigEndian length).stored =
      [(0, headLenSize)] := by
  simp [MsgBuffer.encodeHeaderLength, MsgBuffer.store, MsgBuffer.new]

theorem stored_encode_of_lt (bigEndian : Bool) {msg : TcpMsg P}
    (mem : Memory) (hheader : (headerBytes msg).length < 2 ^ 31)
    (hbody : msg.pbmessage.bytes.length < 2 ^ 31) :
    (encode bigEndian msg (.new mem)).2.2.stored =
      [(headLenSize + (headerBytes msg).length,
          msg.pbmessage.bytes.length),
        (headLenSize, (headerBytes msg).length), (0, headLenSize)] := by
  rw [encode_of_lt bigEndian _ hheader hbody]
  simp only [MsgBuffer.store, stored_encodeHeaderLength]

theorem stored_encode_of_ge_body (bigEndian : Bool) {msg : TcpMsg P}
    (mem : Memory) (hheader : (headerBytes msg).length < 2 ^ 31)
    (hbody : ¬msg.pbmessage.bytes.length < 2 ^ 31) :
    (encode bigEndian msg (.new mem)).2.2.stored =
      [(headLenSize, (headerBytes msg).length), (0, headLenSize)] := by
  have hheader' : (P.header.serialize (stamp msg).header).length < 2 ^ 31 :=
    hheader
  have hbody' : ¬(stamp msg).pbmessage.bytes.length < 2 ^ 31 := hbody
  simp only [encode, MsgBuffer.encodeHeader_of_lt _ hheader',
    MsgBuffer.encodeMessage_of_ge _ hbody', MsgBuffer.store,
    stored_encodeHeaderLength]
  rfl

theorem stored_encode_of_ge_header (bigEndian : Bool) {msg : TcpMsg P}
    (mem : Memory) (hheader : ¬(headerBytes msg).length < 2 ^ 31) :
    (encode bigEndian msg (.new mem)).2.2.stored = [(0, headLenSize)] := by
  have hheader' : ¬(P.header.serialize (stamp msg).header).length < 2 ^ 31 :=
    hheader
  simp only [encode, MsgBuffer.encodeHeader_of_ge _ hheader',
    stored_encodeHeaderLength]

theorem writesInside_iff (bigEndian : Bool) (msg : TcpMsg P)
    (mem : Memory) : WritesInside bigEndian msg mem ↔ SendFits msg := by
  rw [WritesInside, SendFits]
  by_cases hheader : (headerBytes msg).length < 2 ^ 31
  · by_cases hbody : msg.pbmessage.bytes.length < 2 ^ 31
    · rw [stored_encode_of_lt bigEndian mem hheader hbody]
      simp only [List.forall_mem_cons, Inside]
      constructor
      · rintro ⟨h, -⟩
        omega
      · intro h
        exact ⟨by omega, by omega, by omega, List.forall_mem_nil _⟩
    · rw [stored_encode_of_ge_body bigEndian mem hheader hbody]
      simp only [List.forall_mem_cons, Inside]
      constructor
      · rintro ⟨h, -⟩
        omega
      · intro h
        exact ⟨by omega, by omega, List.forall_mem_nil _⟩
  · rw [stored_encode_of_ge_header bigEndian mem hheader]
    simp only [List.forall_mem_cons, Inside]
    exact iff_of_true ⟨by omega, List.forall_mem_nil _⟩ (.inl (by omega))

/--
The reads of a session stay in its buffer for exactly the streams whose
prefixes and headers are all harmless, and its writes for exactly the messages
that fit.
-/
theorem buffers_bounded (host : Host P) (mem : Memory)
    (chunks : List (List Byte)) (msg : TcpMsg P) :
    (ReadsInside host mem chunks ↔
      ∀ t bytes, (receiver host).Takes (TcpSession.new mem).doReadHeadLen
        chunks.flatten t bytes → Harmless host t bytes) ∧
    (WritesInside host.bigEndian msg mem ↔ SendFits msg) := by
  constructor
  · exact readsInside_iff host mem chunks
  · exact writesInside_iff host.bigEndian msg mem

theorem prefix_overruns :
    ¬∀ (host : Host systemProtobuf) (mem : Memory)
      (chunks : List (List Byte)) (msg : TcpMsg systemProtobuf),
      ReadsInside host mem chunks ∧
        WritesInside host.bigEndian msg mem := by
  intro h
  have hreads := (h ⟨.new, false⟩ (fun _ => 0) [[0x80, 0, 0, 0]]
    (notice .sessionClose)).1
  rw [readsInside_iff] at hreads
  have hlt : (ntoh32 false (loadWord false [0x80, 0, 0, 0])).toNat < 2 ^ 31 :=
    hreads _ _ (.here (n := headLenSize) rfl (by decide))
  exact absurd hlt (by decide)

end StarsGaming.Net
