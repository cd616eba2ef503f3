import Luan.Core.OnesComplement

/-!
# The checksum of an echo request

`in_cksum` and `create_icmp_packet` of `lua-apple/icmp_sender.m`, on hosts of either byte order.
The checksum is added up from words in the order of the host; that order is a parameter here.  An
overflow of the `int32_t` accumulator is `none`.

`createIcmpPacket_spec`: there is none, the packet carries the checksum of RFC 1071, and checking
the packet yields zero.
-/

namespace Luan

/-! ## The host -/

/-- The order in which a host stores the bytes of a number. -/
inductive HostOrder
  | littleEndian
  | bigEndian
  deriving DecidableEq, Repr

namespace HostOrder

/-- The `uint16_t` stored in two bytes. -/
def word : HostOrder → UInt8 → UInt8 → ℕ
  | littleEndian, b₀, b₁ => b₀.toNat + 256 * b₁.toNat
  | bigEndian, b₀, b₁ => 256 * b₀.toNat + b₁.toNat

/-- The two bytes in which a `uint16_t` is stored. -/
def bytes : HostOrder → ℕ → List UInt8
  | littleEndian, w => [UInt8.ofNat (w % 256), UInt8.ofNat (w / 256)]
  | bigEndian, w => [UInt8.ofNat (w / 256), UInt8.ofNat (w % 256)]

/-- `htons` -/
def htons : HostOrder → ℕ → ℕ
  | littleEndian, w => 256 * (w % 256) + w / 256
  | bigEndian, w => w

/-- The words a buffer consists of; an odd byte at the end is followed by a zero. -/
def words (order : HostOrder) : List UInt8 → List ℕ
  | b₀ :: b₁ :: rest => order.word b₀ b₁ :: words order rest
  | [b] => [order.word b 0]
  | [] => []

end HostOrder

/-! ## The functions -/

/-- An addition to an `int32_t` that is not negative, of something that is not negative. -/
def addInt32 (sum n : ℕ) : Option ℕ := if sum + n ≤ 2147483647 then some (sum + n) else none

/-- The loop of `in_cksum`, with the odd byte behind it. -/
def inCksumLoop (order : HostOrder) : List UInt8 → ℕ → Option ℕ
  | b₀ :: b₁ :: rest, sum => (addInt32 sum (order.word b₀ b₁)).bind (inCksumLoop order rest)
  | [b], sum => addInt32 sum (order.word b 0)
  | [], sum => some sum

/-- `in_cksum` -/
def inCksum (order : HostOrder) (buffer : List UInt8) : Option ℕ := do
  let sum ← inCksumLoop order buffer 0
  let sum ← addInt32 (sum >>> 16) (sum &&& 0xffff)
  let sum ← addInt32 sum (sum >>> 16)
  -- `(uint16_t) ~sum`
  return 65535 - sum % 65536

/-- The packet that `create_icmp_packet` fills in, with this number in the field `checksum`. -/
def icmpPacket (order : HostOrder) (checksum : ℕ) (identifier sequence : UInt16)
    (data : List UInt8) : List UInt8 :=
  8 :: 0 :: (order.bytes checksum ++ order.bytes (order.htons identifier.toNat)
    ++ order.bytes (order.htons sequence.toNat) ++ data)

/-- `create_icmp_packet` -/
def createIcmpPacket (order : HostOrder) (identifier sequence : UInt16) (data : List UInt8) :
    Option (List UInt8) :=
  (inCksum order (icmpPacket order 0 identifier sequence data)).map fun checksum =>
    icmpPacket order checksum identifier sequence data

/-! ## What they should compute -/

/-- The bytes of a `uint16_t` in network byte order. -/
def networkBytes (w : ℕ) : List UInt8 := [UInt8.ofNat (w / 256), UInt8.ofNat (w % 256)]

/-- **The checksum of RFC 1071**: the complement of the one's complement sum of the words in network
byte order. -/
def rfc1071 (packet : List UInt8) : ℕ := 65535 - onesSum 65535 (HostOrder.bigEndian.words packet)

/-- **An echo request as it goes over the network.** -/
def echoRequest (checksum : ℕ) (identifier sequence : UInt16) (data : List UInt8) : List UInt8 :=
  8 :: 0 :: (networkBytes checksum ++ networkBytes identifier.toNat
    ++ networkBytes sequence.toNat ++ data)

/-! ## Words and their bytes -/

section Words

variable (order : HostOrder)

lemma word_le (b₀ b₁ : UInt8) : order.word b₀ b₁ ≤ 65535 := by
  have h₀ := b₀.toNat_lt
  have h₁ := b₁.toNat_lt
  cases order <;> simp only [HostOrder.word] <;> omega

lemma words_le (buffer : List UInt8) : ∀ w ∈ order.words buffer, w ≤ 65535 := by
  fun_induction HostOrder.words order buffer with
  | case1 b₀ b₁ rest ih =>
      intro w hw
      rcases List.mem_cons.mp hw with rfl | hrest
      · exact word_le order b₀ b₁
      · exact ih w hrest
  | case2 b =>
      intro w hw
      rw [List.mem_singleton.mp hw]
      exact word_le order b 0
  | case3 =>
      intro w hw
      cases hw

lemma length_words (buffer : List UInt8) :
    (order.words buffer).length = (buffer.length + 1) / 2 := by
  fun_induction HostOrder.words order buffer with
  | case1 b₀ b₁ rest ih =>
      simp only [List.length_cons, ih]
      omega
  | case2 b => simp
  | case3 => simp

/-- A word of the host has the bytes of the word of the network, which `htons` puts in order. -/
lemma word_eq_htons (b₀ b₁ : UInt8) :
    order.word b₀ b₁ = order.htons (HostOrder.bigEndian.word b₀ b₁) := by
  have h₀ := b₀.toNat_lt
  have h₁ := b₁.toNat_lt
  cases order with
  | littleEndian =>
      simp only [HostOrder.word, HostOrder.htons]
      omega
  | bigEndian => rfl

lemma htons_htons {w : ℕ} (hw : w ≤ 65535) : order.htons (order.htons w) = w := by
  cases order with
  | littleEndian =>
      simp only [HostOrder.htons]
      omega
  | bigEndian => rfl

/-- What is stored in host order has the bytes of its `htons` in network order. -/
lemma bytes_eq_networkBytes {w : ℕ} (hw : w ≤ 65535) :
    order.bytes w = networkBytes (order.htons w) := by
  cases order with
  | littleEndian =>
      have hhigh : (256 * (w % 256) + w / 256) / 256 = w % 256 := by omega
      have hlow : (256 * (w % 256) + w / 256) % 256 = w / 256 := by omega
      rw [HostOrder.bytes, HostOrder.htons, networkBytes, hhigh, hlow]
  | bigEndian => rfl

lemma htons_le {w : ℕ} (hw : w ≤ 65535) : order.htons w ≤ 65535 := by
  cases order <;> simp only [HostOrder.htons] <;> omega

/-- A number put into network order is stored in network order. -/
lemma bytes_htons {w : ℕ} (hw : w ≤ 65535) : order.bytes (order.htons w) = networkBytes w := by
  rw [bytes_eq_networkBytes order (htons_le order hw), htons_htons order hw]

end Words

/-! ## The sum -/

section Sum

variable {order : HostOrder}

/-- The loop adds the words up as long as the `int32_t` holds the sum.  Induction on the buffer. -/
lemma inCksumLoop_eq (buffer : List UInt8) (sum : ℕ)
    (hsum : sum + wordTotal (order.words buffer) ≤ 2147483647) :
    inCksumLoop order buffer sum = some (sum + wordTotal (order.words buffer)) := by
  fun_induction HostOrder.words order buffer generalizing sum with
  | case1 b₀ b₁ rest ih =>
      rw [wordTotal] at hsum ⊢
      rw [inCksumLoop, addInt32, if_pos (by omega), Option.bind_some, ih _ (by omega),
        Nat.add_assoc]
  | case2 b =>
      rw [wordTotal, wordTotal] at hsum ⊢
      rw [inCksumLoop, addInt32, if_pos (by omega), Nat.add_zero]
  | case3 => rfl

/-- The first fold leaves at most one carry, so that both together are one addition of the high and
the low half. -/
lemma fold_eq_onesAdd {high low : ℕ} (hhigh : high ≤ 65535) (hlow : low ≤ 65535) :
    (high + low + (high + low) / 65536) % 65536 = onesAdd 65535 high low := by
  rw [onesAdd]
  split_ifs with hsum
  · rw [Nat.div_eq_of_lt (by omega), Nat.add_zero, Nat.mod_eq_of_lt (by omega)]
  · have hcarry : (high + low) / 65536 = 1 := Nat.div_eq_of_lt_le (by omega) (by omega)
    rw [hcarry, Nat.mod_eq_sub_mod (by omega), Nat.mod_eq_of_lt (by omega)]
    omega

/-- **Two folds are enough** to bring all carries back in. -/
lemma fold_eq_onesRep {sum : ℕ} (hsum : sum ≤ 2147483647) :
    (sum / 65536 + sum % 65536 + (sum / 65536 + sum % 65536) / 65536) % 65536
      = onesRep 65535 sum := by
  have hhigh : sum / 65536 ≤ 65535 := by omega
  have hlow : sum % 65536 ≤ 65535 := by omega
  rw [fold_eq_onesAdd hhigh hlow, onesAdd_eq hhigh hlow]
  exact onesRep_congr (by omega) (by omega) (by omega)

/-- The words of a packet that can be sent do not overflow the accumulator. -/
lemma wordTotal_words_le {buffer : List UInt8} (hlen : buffer.length ≤ 65535) :
    wordTotal (order.words buffer) ≤ 2147450880 := by
  have htotal := wordTotal_le (words_le order buffer)
  rw [length_words] at htotal
  have hcount : (buffer.length + 1) / 2 ≤ 32768 := by omega
  exact Nat.le_trans htotal (Nat.mul_le_mul_right 65535 hcount)

/-- **What `in_cksum` computes**, in the order of the host. -/
lemma inCksum_eq {buffer : List UInt8} (hlen : buffer.length ≤ 65535) :
    inCksum order buffer = some (65535 - onesRep 65535 (wordTotal (order.words buffer))) := by
  have htotal : wordTotal (order.words buffer) ≤ 2147450880 := wordTotal_words_le hlen
  have hshift : ∀ n : ℕ, n >>> 16 = n / 65536 := fun n => Nat.shiftRight_eq_div_pow n 16
  have hmask : ∀ n : ℕ, n &&& 0xffff = n % 65536 := fun n => Nat.and_two_pow_sub_one_eq_mod n 16
  have hloop := @inCksumLoop_eq order buffer 0 (by omega)
  rw [Nat.zero_add] at hloop
  rw [← fold_eq_onesRep (by omega)]
  generalize wordTotal (order.words buffer) = sum at *
  simp only [inCksum, hloop, hshift, hmask, bind, Option.bind_some, pure, addInt32]
  rw [if_pos (by omega), Option.bind_some, if_pos (by omega), Option.bind_some]

/-- Putting every word into the other order multiplies the sum by 256, up to multiples of 65535. -/
lemma wordTotal_words (buffer : List UInt8) :
    order.htons (onesRep 65535 (wordTotal (order.words buffer)))
      = onesRep 65535 (wordTotal (HostOrder.bigEndian.words buffer)) := by
  cases order with
  | bigEndian => rfl
  | littleEndian =>
      have hscale : wordTotal (HostOrder.littleEndian.words buffer) % 65535
            = 256 * wordTotal (HostOrder.bigEndian.words buffer) % 65535
          ∧ (wordTotal (HostOrder.littleEndian.words buffer) = 0
            ↔ wordTotal (HostOrder.bigEndian.words buffer) = 0) := by
        fun_induction HostOrder.words HostOrder.littleEndian buffer with
        | case1 b₀ b₁ rest ih =>
            obtain ⟨hmod, hzero⟩ := ih
            simp only [HostOrder.words, HostOrder.word, wordTotal]
            omega
        | case2 b =>
            simp only [HostOrder.words, HostOrder.word, wordTotal]
            simp
            omega
        | case3 => exact ⟨rfl, Iff.rfl⟩
      obtain ⟨hmod, hzero⟩ := hscale
      have hle := onesRep_le (show 0 < 65535 by omega)
        (wordTotal (HostOrder.littleEndian.words buffer))
      have hrep := onesRep_mod 65535 (wordTotal (HostOrder.littleEndian.words buffer))
      have hrepZero := onesRep_eq_zero (m := 65535)
        (n := wordTotal (HostOrder.littleEndian.words buffer))
      simp only [HostOrder.htons]
      refine onesRep_unique ?_ ?_ ?_
      · omega
      · omega
      · omega

end Sum

/-! ## The packet -/

section Packet

variable {order : HostOrder} {identifier sequence : UInt16} {data : List UInt8}

/-- What is stored in host order is read back as the same word. -/
lemma exists_bytes {w : ℕ} (hw : w ≤ 65535) :
    ∃ b₀ b₁, order.bytes w = [b₀, b₁] ∧ order.word b₀ b₁ = w := by
  cases order with
  | littleEndian =>
      refine ⟨_, _, rfl, ?_⟩
      simp only [HostOrder.word, UInt8.toNat_ofNat']
      omega
  | bigEndian =>
      refine ⟨_, _, rfl, ?_⟩
      simp only [HostOrder.word, UInt8.toNat_ofNat']
      omega

/-- The field `checksum` is a word of the packet. -/
lemma wordTotal_icmpPacket {checksum : ℕ} (hchecksum : checksum ≤ 65535) :
    wordTotal (order.words (icmpPacket order checksum identifier sequence data))
      = wordTotal (order.words (icmpPacket order 0 identifier sequence data)) + checksum := by
  obtain ⟨b₀, b₁, hbytes, hword⟩ := @exists_bytes order _ hchecksum
  obtain ⟨z₀, z₁, hzeros, hzero⟩ := @exists_bytes order _ (Nat.zero_le 65535)
  rw [icmpPacket, icmpPacket, hbytes, hzeros]
  simp only [List.cons_append, List.nil_append, HostOrder.words, wordTotal, hword, hzero]
  omega

/-- The type of an echo request is not zero. -/
lemma wordTotal_icmpPacket_pos (checksum : ℕ) :
    0 < wordTotal (order.words (icmpPacket order checksum identifier sequence data)) := by
  have hword : 0 < order.word 8 0 := by cases order <;> simp [HostOrder.word]
  rw [icmpPacket, HostOrder.words, wordTotal]
  omega

/-- The packet in memory is the packet in network byte order. -/
lemma icmpPacket_eq {checksum : ℕ} (hchecksum : checksum ≤ 65535) :
    icmpPacket order checksum identifier sequence data
      = echoRequest (order.htons checksum) identifier sequence data := by
  have hidentifier := identifier.toNat_lt
  have hsequence := sequence.toNat_lt
  rw [icmpPacket, echoRequest, bytes_eq_networkBytes order hchecksum,
    bytes_htons order (by omega), bytes_htons order (by omega)]

lemma length_icmpPacket (checksum : ℕ) :
    (icmpPacket order checksum identifier sequence data).length = 8 + data.length := by
  have hbytes : ∀ w, (order.bytes w).length = 2 := by
    intro w
    cases order <;> rfl
  simp only [icmpPacket, List.length_cons, List.length_append, hbytes]
  omega

/-- The complement is the same in either order. -/
lemma htons_complement {w : ℕ} (hw : w ≤ 65535) :
    order.htons (65535 - w) = 65535 - order.htons w := by
  cases order with
  | littleEndian =>
      simp only [HostOrder.htons]
      omega
  | bigEndian => rfl

end Packet

/-- **The packet that `create_icmp_packet` makes**: on a host of either byte order the accumulator
does not overflow, the field holds the checksum of RFC 1071 in network byte order, and `in_cksum`
of the packet is zero. -/
theorem createIcmpPacket_spec (order : HostOrder) (identifier sequence : UInt16)
    (data : List UInt8) (hlen : 8 + data.length ≤ 65535) :
    ∃ packet, createIcmpPacket order identifier sequence data = some packet
      ∧ packet = echoRequest (rfc1071 (echoRequest 0 identifier sequence data)) identifier sequence
          data
      ∧ inCksum order packet = some 0 := by
  have hzero : icmpPacket order 0 identifier sequence data
      = echoRequest 0 identifier sequence data := by
    rw [icmpPacket_eq (Nat.zero_le 65535)]
    cases order <;> rfl
  have hsum := @inCksum_eq order (icmpPacket order 0 identifier sequence data)
    (by rwa [length_icmpPacket])
  have hpos : 0 < wordTotal (order.words (icmpPacket order 0 identifier sequence data)) :=
    wordTotal_icmpPacket_pos 0
  generalize htotal : wordTotal (order.words (icmpPacket order 0 identifier sequence data)) = total
    at *
  have hle : 65535 - onesRep 65535 total ≤ 65535 := Nat.sub_le _ _
  refine ⟨icmpPacket order (65535 - onesRep 65535 total) identifier sequence data, ?_, ?_, ?_⟩
  · rw [createIcmpPacket, hsum, Option.map_some]
  · rw [icmpPacket_eq hle, htons_complement (onesRep_le (by omega) total), ← htotal,
      wordTotal_words, hzero, rfc1071,
      onesSum_eq (by omega) (words_le .bigEndian _)]
  · rw [inCksum_eq (by rwa [length_icmpPacket]), wordTotal_icmpPacket hle, htotal]
    have hrep := onesRep_mod 65535 total
    have hrepLe := onesRep_le (show 0 < 65535 by omega) total
    have hfull : onesRep 65535 (total + (65535 - onesRep 65535 total)) = 65535 :=
      (onesRep_unique (Nat.le_refl 65535) (by omega) (by omega)).symm
    rw [hfull, Nat.sub_self]

/-- A request with three bytes, on a little-endian host. -/
theorem createIcmpPacket_spec_abc :
    ∃ packet, createIcmpPacket .littleEndian 1 2 [0x61, 0x62, 0x63] = some packet
      ∧ packet = echoRequest (rfc1071 (echoRequest 0 1 2 [0x61, 0x62, 0x63])) 1 2 [0x61, 0x62, 0x63]
      ∧ inCksum .littleEndian packet = some 0 :=
  createIcmpPacket_spec .littleEndian 1 2 [0x61, 0x62, 0x63] (by simp)

end Luan
