import Luan.Core.CRun
import Luan.Icmp.Checksum

/-!
# What comes back

`icmp_header_offset_in_ipv4_packet` and `icmp_socket_callback` of `lua-apple/icmp_sender.m`: the
bytes that `recvfrom` returned are taken apart, and the coroutine is resumed with what they say.
The round-trip time is left out.

The length of the IPv4 header is taken from the datagram and is not compared with the 20 bytes that
such a header has at least.  `icmpSocketCallback_iff` says when that shows.
-/

namespace Luan

/-- What `recvfrom` puts into the buffer of `kBufferSize` bytes; nothing where it fails. -/
structure Datagram where
  bytes : List UInt8
  fits : bytes.length ≤ 65535

/-- What the callback uses of the `icmp_context`. -/
structure IcmpContext where
  identifier : UInt16
  sequence : UInt16
  /-- `co` is not `NULL`. -/
  co : Bool
  useCoroutine : Bool
  deriving DecidableEq, Repr

/-- The table the coroutine is resumed with. -/
structure EchoReply where
  version : ℕ
  dscp : ℕ
  ecn : ℕ
  identification : ℕ
  flag : ℕ
  fragmentoffset : ℕ
  ttl : ℕ
  protocol : ℕ
  type : ℕ
  code : ℕ
  identifier : ℕ
  sequenceNumber : ℕ
  body : List UInt8
  deriving DecidableEq, Repr

/-! ## The functions -/

/-- `ntohs` of the `uint16_t` at an offset; it is the same function as `htons`. -/
def ntohsAt (order : HostOrder) (packet : List UInt8) (i : ℕ) : CRun ℕ :=
  (byteAt packet i).bind fun b₀ =>
    (byteAt packet (i + 1)).bind fun b₁ => .done (order.htons (order.word b₀ b₁))

/-- `icmp_header_offset_in_ipv4_packet`; `sizeof(struct IPv4Header)` is 20 and
`sizeof(struct ICMPHeader)` is 8. -/
def icmpHeaderOffsetInIpv4Packet (packet : List UInt8) : CRun ℕ :=
  if packet.length ≥ 20 + 8 then
    (byteAt packet 0).bind fun versionAndHeaderLength =>
      (byteAt packet 9).bind fun protocol =>
        if versionAndHeaderLength &&& 0xF0 = 0x40 ∧ protocol = 1 then
          let ipHeaderLength := (versionAndHeaderLength &&& 0x0F).toNat * 4
          if packet.length ≥ ipHeaderLength + 8 then .done ipHeaderLength else .done 0
        else .done 0
  else .done 0

/-- The table that the callback makes of the packet. -/
def readEchoReply (order : HostOrder) (packet : List UInt8) (icmpOffset : ℕ) : CRun EchoReply :=
  (byteAt packet 0).bind fun versionAndHeaderLength =>
  (byteAt packet 1).bind fun differentiatedServices =>
  (ntohsAt order packet 4).bind fun identification =>
  (ntohsAt order packet 6).bind fun flagsAndFragmentOffset =>
  (byteAt packet 8).bind fun timeToLive =>
  (byteAt packet 9).bind fun protocol =>
  (byteAt packet icmpOffset).bind fun type =>
  (byteAt packet (icmpOffset + 1)).bind fun code =>
  (ntohsAt order packet (icmpOffset + 4)).bind fun identifier =>
  (ntohsAt order packet (icmpOffset + 6)).bind fun sequenceNumber =>
  (bytesFromTo packet (icmpOffset + 8) packet.length).bind fun body =>
    .done
      { version := versionAndHeaderLength.toNat >>> 4 &&& 0x0F
        dscp := differentiatedServices.toNat >>> 2 &&& 0x3F
        ecn := differentiatedServices.toNat &&& 0x03
        identification := identification
        flag := flagsAndFragmentOffset >>> 13 &&& 0x07
        fragmentoffset := flagsAndFragmentOffset &&& 0x1FFF
        ttl := timeToLive.toNat
        protocol := protocol.toNat
        type := type.toNat
        code := code.toNat
        identifier := identifier
        sequenceNumber := sequenceNumber
        body := body }

/-- `icmp_socket_callback`: the context behind it, and what the coroutine is resumed with. -/
def icmpSocketCallback (order : HostOrder) (ctx : IcmpContext) (datagram : Datagram) :
    CRun (IcmpContext × Option EchoReply) :=
  let packet := datagram.bytes
  if packet.length > 0 then
    (icmpHeaderOffsetInIpv4Packet packet).bind fun icmpOffset =>
      -- `bytesRead - icmp_offset` is a `size_t`
      if icmpOffset > 0 ∧ (packet.length + UInt64.size - icmpOffset) % UInt64.size ≥ 8 then
        (byteAt packet icmpOffset).bind fun type =>
        (ntohsAt order packet (icmpOffset + 4)).bind fun identifier =>
        (ntohsAt order packet (icmpOffset + 6)).bind fun sequenceNumber =>
          if type = 0 ∧ identifier = ctx.identifier.toNat ∧ sequenceNumber = ctx.sequence.toNat then
            if ctx.co ∧ ctx.useCoroutine then
              (readEchoReply order packet icmpOffset).bind fun reply =>
                .done ({ ctx with useCoroutine := false }, some reply)
            else .done (ctx, none)
          else .done (ctx, none)
      else .done (ctx, none)
  else .done (ctx, none)

/-! ## What it should accept -/

/-- **An IPv4 header with the protocol ICMP**, of the length that its own first byte names. -/
structure Ipv4IcmpHeader (header : List UInt8) : Prop where
  version : header.getD 0 0 &&& 0xF0 = 0x40
  headerLength : (header.getD 0 0 &&& 0x0F).toNat * 4 = header.length
  protocol : header.getD 9 0 = 1
  long : 20 ≤ header.length

/-- **A reply to the request of the context, with this body**: such a header, then the eight bytes
of an echo reply. -/
def IsEchoReply (ctx : IcmpContext) (packet body : List UInt8) : Prop :=
  ∃ header code c₀ c₁, Ipv4IcmpHeader header
    ∧ packet = header ++ 0 :: code :: c₀ :: c₁
        :: (networkBytes ctx.identifier.toNat ++ networkBytes ctx.sequence.toNat ++ body)

/-- What `icmp_header_offset_in_ipv4_packet` tests of a packet, with the offset it takes from it. -/
structure HeaderAt (packet : List UInt8) (icmpOffset : ℕ) : Prop where
  long : 28 ≤ packet.length
  version : packet.getD 0 0 &&& 0xF0 = 0x40
  protocol : packet.getD 9 0 = 1
  headerLength : (packet.getD 0 0 &&& 0x0F).toNat * 4 = icmpOffset
  room : icmpOffset + 8 ≤ packet.length

/-- What the callback tests of a packet, with the offset of the ICMP header. -/
structure AnswersAt (ctx : IcmpContext) (packet : List UInt8) (icmpOffset : ℕ) : Prop
    extends HeaderAt packet icmpOffset where
  positive : 0 < icmpOffset
  type : packet.getD icmpOffset 0 = 0
  identifier : 256 * (packet.getD (icmpOffset + 4) 0).toNat
    + (packet.getD (icmpOffset + 5) 0).toNat = ctx.identifier.toNat
  sequence : 256 * (packet.getD (icmpOffset + 6) 0).toNat
    + (packet.getD (icmpOffset + 7) 0).toNat = ctx.sequence.toNat

/-! ## Reading -/

section Reading

variable {packet : List UInt8} {i : ℕ}

lemma byteAt_eq (h : i < packet.length) : byteAt packet i = .done (packet.getD i 0) :=
  byteAt_of_get? (by simp [h])

/-- Numbers of the network are read alike on all hosts. -/
lemma ntohsAt_eq (order : HostOrder) (h : i + 1 < packet.length) :
    ntohsAt order packet i
      = .done (256 * (packet.getD i 0).toNat + (packet.getD (i + 1) 0).toNat) := by
  rw [ntohsAt, byteAt_eq (by omega), CRun.done_bind, byteAt_eq h, CRun.done_bind, word_eq_htons,
    htons_htons order (word_le .bigEndian _ _)]
  rfl

/-- **Every read of the table is inside the packet**, and the body is what is behind the header. -/
lemma readEchoReply_eq (order : HostOrder) (hlong : 28 ≤ packet.length)
    (hroom : i + 8 ≤ packet.length) :
    ∃ reply, readEchoReply order packet i = .done reply ∧ reply.body = packet.drop (i + 8) := by
  rw [readEchoReply, byteAt_eq (by omega), CRun.done_bind, byteAt_eq (by omega), CRun.done_bind,
    ntohsAt_eq order (by omega), CRun.done_bind, ntohsAt_eq order (by omega), CRun.done_bind,
    byteAt_eq (by omega), CRun.done_bind, byteAt_eq (by omega), CRun.done_bind,
    byteAt_eq (by omega), CRun.done_bind, byteAt_eq (by omega), CRun.done_bind,
    ntohsAt_eq order (by omega), CRun.done_bind, ntohsAt_eq order (by omega), CRun.done_bind,
    bytesFromTo_length hroom, CRun.done_bind]
  exact ⟨_, rfl, rfl⟩

/-- The offset is that of the header, and 0 where there is none. -/
lemma icmpHeaderOffset_cases (packet : List UInt8) :
    (∃ icmpOffset, HeaderAt packet icmpOffset
        ∧ icmpHeaderOffsetInIpv4Packet packet = .done icmpOffset)
      ∨ ((¬ ∃ icmpOffset, HeaderAt packet icmpOffset)
        ∧ icmpHeaderOffsetInIpv4Packet packet = .done 0) := by
  rw [icmpHeaderOffsetInIpv4Packet]
  by_cases hlong : packet.length ≥ 20 + 8
  · rw [if_pos hlong, byteAt_eq (by omega), CRun.done_bind, byteAt_eq (by omega), CRun.done_bind]
    dsimp only
    split_ifs with hkind hroom
    · exact .inl ⟨_, ⟨hlong, hkind.1, hkind.2, rfl, hroom⟩, rfl⟩
    · refine .inr ⟨?_, rfl⟩
      rintro ⟨icmpOffset, h⟩
      exact hroom (h.headerLength ▸ h.room)
    · refine .inr ⟨?_, rfl⟩
      rintro ⟨icmpOffset, h⟩
      exact hkind ⟨h.version, h.protocol⟩
  · rw [if_neg hlong]
    refine .inr ⟨?_, rfl⟩
    rintro ⟨icmpOffset, h⟩
    exact hlong h.long

end Reading

/-! ## The callback -/

section Callback

variable {ctx : IcmpContext} {datagram : Datagram} {icmpOffset : ℕ}

/-- Without a header nothing happens. -/
lemma icmpSocketCallback_none (order : HostOrder)
    (hoffset : icmpHeaderOffsetInIpv4Packet datagram.bytes = .done 0) :
    icmpSocketCallback order ctx datagram = .done (ctx, none) := by
  rw [icmpSocketCallback, hoffset, CRun.done_bind]
  simp

/-- The tests of the callback, behind the search for the header. -/
lemma icmpSocketCallback_header (order : HostOrder) (h : HeaderAt datagram.bytes icmpOffset)
    (hoffset : icmpHeaderOffsetInIpv4Packet datagram.bytes = .done icmpOffset)
    (hpos : 0 < icmpOffset) :
    icmpSocketCallback order ctx datagram
      = if datagram.bytes.getD icmpOffset 0 = 0
            ∧ 256 * (datagram.bytes.getD (icmpOffset + 4) 0).toNat
              + (datagram.bytes.getD (icmpOffset + 5) 0).toNat = ctx.identifier.toNat
            ∧ 256 * (datagram.bytes.getD (icmpOffset + 6) 0).toNat
              + (datagram.bytes.getD (icmpOffset + 7) 0).toNat = ctx.sequence.toNat then
          if ctx.co ∧ ctx.useCoroutine then
            (readEchoReply order datagram.bytes icmpOffset).bind fun reply =>
              .done ({ ctx with useCoroutine := false }, some reply)
          else .done (ctx, none)
        else .done (ctx, none) := by
  have hroom := h.room
  have hfits := datagram.fits
  have hsize : (datagram.bytes.length + UInt64.size - icmpOffset) % UInt64.size ≥ 8 := by
    simp only [UInt64.size]
    omega
  rw [icmpSocketCallback, if_pos (by omega), hoffset, CRun.done_bind, if_pos ⟨hpos, hsize⟩,
    byteAt_eq (by omega), CRun.done_bind, ntohsAt_eq order (by omega), CRun.done_bind,
    ntohsAt_eq order (by omega), CRun.done_bind]

/-- The offset is taken from the first byte. -/
lemma HeaderAt.unique {packet : List UInt8} {i j : ℕ} (hi : HeaderAt packet i)
    (hj : HeaderAt packet j) : i = j :=
  hi.headerLength.symm.trans hj.headerLength

/-- **The callback reads nothing outside the datagram, and it resumes the coroutine exactly when
there is one and its tests let the datagram through.** -/
lemma icmpSocketCallback_cases (order : HostOrder) (ctx : IcmpContext) (datagram : Datagram) :
    (∃ icmpOffset reply, AnswersAt ctx datagram.bytes icmpOffset ∧ (ctx.co ∧ ctx.useCoroutine)
        ∧ icmpSocketCallback order ctx datagram
          = .done ({ ctx with useCoroutine := false }, some reply)
        ∧ reply.body = datagram.bytes.drop (icmpOffset + 8))
      ∨ (icmpSocketCallback order ctx datagram = .done (ctx, none)
        ∧ ¬ ∃ icmpOffset, AnswersAt ctx datagram.bytes icmpOffset
            ∧ (ctx.co ∧ ctx.useCoroutine)) := by
  rcases icmpHeaderOffset_cases datagram.bytes with ⟨icmpOffset, hheader, hoffset⟩ | ⟨hno, hoffset⟩
  · rcases Nat.eq_zero_or_pos icmpOffset with rfl | hpos
    · refine .inr ⟨icmpSocketCallback_none order hoffset, ?_⟩
      rintro ⟨j, hj, -⟩
      exact absurd hj.positive (by rw [hj.toHeaderAt.unique hheader]; exact Nat.lt_irrefl 0)
    · rw [icmpSocketCallback_header order hheader hoffset hpos]
      split_ifs with htests hco
      · obtain ⟨reply, hread, hbody⟩ := readEchoReply_eq order hheader.long hheader.room
        refine .inl ⟨icmpOffset, reply, ?_, hco, ?_, hbody⟩
        · exact ⟨hheader, hpos, htests.1, htests.2.1, htests.2.2⟩
        · rw [hread, CRun.done_bind]
      · refine .inr ⟨rfl, ?_⟩
        rintro ⟨j, -, hco'⟩
        exact hco hco'
      · refine .inr ⟨rfl, ?_⟩
        rintro ⟨j, hj, -⟩
        obtain rfl := hj.toHeaderAt.unique hheader
        exact htests ⟨hj.type, hj.identifier, hj.sequence⟩
  · refine .inr ⟨icmpSocketCallback_none order hoffset, ?_⟩
    rintro ⟨icmpOffset, h, -⟩
    exact hno ⟨icmpOffset, h.toHeaderAt⟩

end Callback

/-! ## What is let through -/

section Cut

variable {packet : List UInt8} {i : ℕ}

lemma drop_eq_getD_cons (h : i < packet.length) :
    packet.drop i = packet.getD i 0 :: packet.drop (i + 1) := by
  rw [List.drop_eq_getElem_cons h]
  simp [h]

/-- The bytes of a number of the network are those it was read from. -/
lemma networkBytes_word (b₀ b₁ : UInt8) :
    networkBytes (256 * b₀.toNat + b₁.toNat) = [b₀, b₁] := by
  have h₁ := b₁.toNat_lt
  have hhigh : (256 * b₀.toNat + b₁.toNat) / 256 = b₀.toNat := by omega
  have hlow : (256 * b₀.toNat + b₁.toNat) % 256 = b₁.toNat := by omega
  rw [networkBytes, hhigh, hlow, UInt8.ofNat_toNat, UInt8.ofNat_toNat]

/-- Behind the IPv4 header stand the eight bytes of the ICMP header and then the body. -/
lemma AnswersAt.cut {ctx : IcmpContext} (h : AnswersAt ctx packet i) :
    ∃ code c₀ c₁, packet.drop i = 0 :: code :: c₀ :: c₁
      :: (networkBytes ctx.identifier.toNat ++ networkBytes ctx.sequence.toNat
        ++ packet.drop (i + 8)) := by
  have hroom := h.room
  refine ⟨packet.getD (i + 1) 0, packet.getD (i + 2) 0, packet.getD (i + 3) 0, ?_⟩
  rw [← h.identifier, ← h.sequence, networkBytes_word, networkBytes_word]
  rw [drop_eq_getD_cons (show i < packet.length by omega), h.type,
    drop_eq_getD_cons (show i + 1 < packet.length by omega),
    drop_eq_getD_cons (show i + 2 < packet.length by omega),
    drop_eq_getD_cons (show i + 3 < packet.length by omega),
    drop_eq_getD_cons (show i + 4 < packet.length by omega),
    drop_eq_getD_cons (show i + 5 < packet.length by omega),
    drop_eq_getD_cons (show i + 6 < packet.length by omega),
    drop_eq_getD_cons (show i + 7 < packet.length by omega)]
  rfl

/-- A packet with a header of at least 20 bytes is the reply it is taken for. -/
lemma AnswersAt.isEchoReply {ctx : IcmpContext} (h : AnswersAt ctx packet i) (hlong : 20 ≤ i) :
    IsEchoReply ctx packet (packet.drop (i + 8)) := by
  have hroom := h.room
  have hlen : (packet.take i).length = i := by
    rw [List.length_take]
    omega
  have hget : ∀ k, k < i → (packet.take i).getD k 0 = packet.getD k 0 := by
    intro k hk
    simp [hk]
  obtain ⟨code, c₀, c₁, hcut⟩ := h.cut
  refine ⟨packet.take i, code, c₀, c₁, ⟨?_, ?_, ?_, ?_⟩, ?_⟩
  · rw [hget 0 (by omega), h.version]
  · rw [hget 0 (by omega), h.headerLength, hlen]
  · rw [hget 9 (by omega), h.protocol]
  · rwa [hlen]
  · rw [← hcut, List.take_append_drop]

/-- The header of a reply is as long as the callback takes it for. -/
lemma AnswersAt.long_of_isEchoReply {ctx : IcmpContext} {body : List UInt8}
    (h : AnswersAt ctx packet i) (hreply : IsEchoReply ctx packet body) : 20 ≤ i := by
  obtain ⟨header, code, c₀, c₁, hheader, rfl⟩ := hreply
  have hlong := hheader.long
  have hfirst : (header ++ 0 :: code :: c₀ :: c₁ :: (networkBytes ctx.identifier.toNat
      ++ networkBytes ctx.sequence.toNat ++ body)).getD 0 0 = header.getD 0 0 := by
    rw [List.getD_eq_getElem?_getD, List.getElem?_append_left (by omega),
      List.getD_eq_getElem?_getD]
  rw [← h.headerLength, hfirst, hheader.headerLength]
  exact hlong

end Cut

/-- **The callback resumes only for a reply to its request, and with its body, if and only if it
does not let a datagram through whose IPv4 header would be shorter than 20 bytes.**  It never reads
outside the datagram. -/
theorem icmpSocketCallback_iff (order : HostOrder) (ctx : IcmpContext) (datagram : Datagram) :
    (∃ ctx' answer, icmpSocketCallback order ctx datagram = .done (ctx', answer)
      ∧ ∀ reply, answer = some reply → IsEchoReply ctx datagram.bytes reply.body)
    ↔ ¬ ∃ icmpOffset, icmpOffset < 20 ∧ AnswersAt ctx datagram.bytes icmpOffset
        ∧ (ctx.co ∧ ctx.useCoroutine) := by
  rcases icmpSocketCallback_cases order ctx datagram with
    ⟨i, reply, hi, hco, hcallback, hbody⟩ | ⟨hcallback, hno⟩
  · constructor
    · rintro ⟨ctx', answer, hanswer, hgood⟩ ⟨j, hshort, hj, -⟩
      rw [hcallback] at hanswer
      obtain ⟨-, rfl⟩ := Prod.mk.inj (CRun.done.inj hanswer)
      have hlong := hj.long_of_isEchoReply (hgood reply rfl)
      omega
    · intro hnoShort
      refine ⟨_, _, hcallback, fun reply' hreply' => ?_⟩
      obtain rfl := Option.some.inj hreply'
      rw [hbody]
      exact hi.isEchoReply (Nat.le_of_not_lt fun hshort => hnoShort ⟨i, hshort, hi, hco⟩)
  · constructor
    · rintro - ⟨j, -, hj⟩
      exact hno ⟨j, hj⟩
    · rintro -
      exact ⟨_, _, hcallback, fun reply hreply => by cases hreply⟩

/-- A datagram whose first byte names a header of 4 bytes. -/
def shortHeaderDatagram : Datagram where
  bytes := [0x41, 0, 0, 28, 0, 0, 0, 0, 0, 1, 0, 7] ++ List.replicate 16 0
  fits := by decide

/-- It is taken for the reply to the request 1, 7. -/
theorem icmpSocketCallback_short_header :
    ∃ reply, icmpSocketCallback .littleEndian ⟨1, 7, true, true⟩ shortHeaderDatagram
        = .done (⟨1, 7, true, false⟩, some reply)
      ∧ ¬ IsEchoReply ⟨1, 7, true, true⟩ shortHeaderDatagram.bytes reply.body := by
  have hanswers : AnswersAt ⟨1, 7, true, true⟩ shortHeaderDatagram.bytes 4 :=
    { long := by decide, version := by decide, protocol := by decide, headerLength := by decide,
      room := by decide, positive := by decide, type := by decide, identifier := by decide,
      sequence := by decide }
  rcases icmpSocketCallback_cases .littleEndian ⟨1, 7, true, true⟩ shortHeaderDatagram with
    ⟨i, reply, -, -, hcallback, -⟩ | ⟨-, hno⟩
  · refine ⟨reply, hcallback, fun hreply => ?_⟩
    have hlong := hanswers.long_of_isEchoReply hreply
    omega
  · exact absurd ⟨4, hanswers, rfl, rfl⟩ hno

end Luan
