import Luan.Core.CRun
import Luan.Core.SixBits
import Mathlib.Data.List.Induction
import Mathlib.Data.List.Nodup
import Mathlib.Data.List.TakeWhile

/-!
# Base64 with a table of the script

`lua-apple/utlua/lbase64.c`.  The table of letters is global, and `base64.code` sets it to any
string of 64 bytes.  `strdup` cuts the copy at a zero byte, and `encode` reads the table by index:
behind the end of the copy it is undefined what it reads.

* `ldecode_eq` — what `decode` answers, for every table and every text; blanks may be anywhere.
* `lencode_eq` — what `encode` writes, and that it is defined exactly if the table reaches as far
  as the digits.
* `base64_lossless_iff` — after which calls of `base64.code` nothing is lost.
-/

namespace Luan

/-- What `code` can point at. -/
structure Base64Code where
  letters : List UInt8
  size : letters.length ≤ 64
  noZero : 0 ∉ letters

/-- `"ABCDEFGHIJKLMNOPQRSTUVWXYZabcdefghijklmnopqrstuvwxyz0123456789+/"` -/
def standardCode : Base64Code where
  letters := (List.range 26).map (fun n => .ofNat (65 + n)) ++ (List.range 26).map (fun n =>
    .ofNat (97 + n)) ++ (List.range 10).map (fun n => .ofNat (48 + n)) ++ [43, 47]
  size := by decide
  noZero := by decide

/-- `Lcode`; the table stays as it is where the call raises an error. -/
def lcode (code : Base64Code) (s : List UInt8) : Base64Code :=
  if h : s.length = 64 then
    { letters := s.takeWhile (· ≠ 0)
      size := h ▸ (List.takeWhile_prefix _).length_le
      noZero := fun h0 => by simpa using List.mem_takeWhile_imp h0 }
  else code

/-- The table after some calls of `base64.code`. -/
def codeAfter (calls : List (List UInt8)) : Base64Code := calls.foldl lcode standardCode

/-! ## `encode` -/

/-- `encode`; the four letters are read before the last ones are overwritten. -/
def encode (code : Base64Code) (c1 c2 c3 : UInt8) (n : ℕ) : CRun (List UInt8) :=
  let tuple := c3.toNat + 256 * (c2.toNat + 256 * c1.toNat)
  let block := code.letters ++ [0]
  (byteAt block (tuple % 64)).bind fun s3 =>
    (byteAt block (tuple / 64 % 64)).bind fun s2 =>
      (byteAt block (tuple / 64 / 64 % 64)).bind fun s1 =>
        (byteAt block (tuple / 64 / 64 / 64 % 64)).bind fun s0 =>
          .done ([s0, s1, s2, s3].take (n + 1) ++ List.replicate (3 - n) 61)

/-- The groups of `Lencode`, and the rest of the string. -/
def encodeLoop (code : Base64Code) (rest : ℕ) : ℕ → List UInt8 → CRun (List UInt8)
  | 0, s =>
      match rest, s with
      | 1, a :: _ => encode code a 0 0 1
      | 2, a :: b :: _ => encode code a b 0 2
      | _, _ => .done []
  | n + 1, a :: b :: c :: s =>
      (encode code a b c 3).bind fun group =>
        (encodeLoop code rest n s).bind fun groups => .done (group ++ groups)
  | _ + 1, _ => .undefined

/-- `Lencode`; a negative `int` counts down past everything. -/
def lencode (code : Base64Code) (s : List UInt8) : CRun (List UInt8) :=
  let n := s.length / 3 % 4294967296
  if n < 2147483648 then encodeLoop code (s.length % 3) n s else .undefined

/-! ## `decode` -/

/-- `decode` -/
def decode (c1 c2 c3 c4 n : ℕ) : List UInt8 :=
  let tuple := c4 + 64 * (c3 + 64 * (c2 + 64 * c1))
  [UInt8.ofNat (tuple / 65536), .ofNat (tuple / 256), .ofNat tuple].take (n - 1)

/-- `strchr(code, c)`, as an offset -/
def codeIndex (code : Base64Code) (c : UInt8) : Option ℕ :=
  if c ∈ code.letters then some (code.letters.idxOf c) else none

/-- Line feed, carriage return, tabulator, space, form feed and backspace. -/
def isSkipped (c : UInt8) : Bool := c = 10 || c = 13 || c = 9 || c = 32 || c = 12 || c = 8

/-- The loop of `Ldecode`; `t` are the digits of a group, `b` is in the buffer. -/
def decodeLoop (code : Base64Code) : List UInt8 → List ℕ → List UInt8 → Option (List UInt8)
  | [], _, b => some b
  | c :: s, t, b =>
      if c = 61 then
        match t with
        | [c1] => some (b ++ decode c1 0 0 0 1)
        | [c1, c2] => some (b ++ decode c1 c2 0 0 2)
        | [c1, c2, c3] => some (b ++ decode c1 c2 c3 0 3)
        | _ => some b
      else if c = 0 then some b
      else if isSkipped c then decodeLoop code s t b
      else
        match codeIndex code c with
        | none => none
        | some d =>
            match t with
            | [c1, c2, c3] => decodeLoop code s [] (b ++ decode c1 c2 c3 d 4)
            | _ => decodeLoop code s (t ++ [d]) b

/-- `Ldecode`; `none` is that it returns nothing. -/
def ldecode (code : Base64Code) (s : List UInt8) : Option (List UInt8) := decodeLoop code s [] []

/-! ## What `decode` answers -/

/-- The part of a text that is read. -/
def isRead (c : UInt8) : Bool := c ≠ 61 && c ≠ 0

/-- The letters that are read. -/
def readLetters (s : List UInt8) : List UInt8 := (s.takeWhile isRead).filter (!isSkipped ·)

/-- The text is read up to an equals sign. -/
def isPadded (s : List UInt8) : Bool := (s.dropWhile isRead).head? = some 61

/-- The digits that are used: without an equals sign, whole groups. -/
def usedDigits (padded : Bool) (ds : List ℕ) : List ℕ :=
  if padded then ds else ds.take (ds.length / 4 * 4)

section Decode

variable {code : Base64Code} {c : UInt8} {s : List UInt8}

lemma codeIndex_lt {d : ℕ} (h : codeIndex code c = some d) : d < 64 := by
  rw [codeIndex] at h
  split_ifs at h with hmem
  rw [← Option.some.inj h]
  exact Nat.lt_of_lt_of_le (List.idxOf_lt_length_of_mem hmem) code.size

lemma isSkipped_isRead (h : isSkipped c = true) : isRead c = true := by
  have hne : c ≠ 61 ∧ c ≠ 0 := by
    constructor <;> rintro rfl <;> exact absurd h (by decide)
  simp [isRead, hne.1, hne.2]

lemma readLetters_cons (h : isRead c = true) :
    readLetters (c :: s) = if isSkipped c then readLetters s else c :: readLetters s := by
  rw [readLetters, List.takeWhile_cons, h, if_pos rfl, List.filter_cons]
  cases isSkipped c <;> rfl

lemma isPadded_cons (h : isRead c = true) : isPadded (c :: s) = isPadded s := by
  rw [isPadded, isPadded, List.dropWhile_cons, h, if_pos rfl]

/-- Bytes are equal if the numbers they are cut from are equal up to whole multiples of 256. -/
lemma ofNat_congr {m n : ℕ} (h : m % 256 = n % 256) : UInt8.ofNat m = UInt8.ofNat n := by
  rw [← UInt8.toNat_inj, UInt8.toNat_ofNat', UInt8.toNat_ofNat']
  exact h

/-- A whole group. -/
lemma decode_four (c1 c2 : ℕ) {c3 c4 : ℕ} (h3 : c3 < 64) (h4 : c4 < 64) :
    decode c1 c2 c3 c4 4 = octets [c1, c2, c3, c4] := by
  have hfirst : UInt8.ofNat ((c4 + 64 * (c3 + 64 * (c2 + 64 * c1))) / 65536)
      = .ofNat (c1 * 4 + c2 / 16) := ofNat_congr (by omega)
  have hsecond : UInt8.ofNat ((c4 + 64 * (c3 + 64 * (c2 + 64 * c1))) / 256)
      = .ofNat (c2 * 16 + c3 / 4) := ofNat_congr (by omega)
  have hthird : UInt8.ofNat (c4 + 64 * (c3 + 64 * (c2 + 64 * c1))) = .ofNat (c3 * 64 + c4) :=
    ofNat_congr (by omega)
  simp only [decode, octets, hfirst, hsecond, hthird]
  rfl

/-- What is left at an equals sign. -/
lemma decode_rest {t : List ℕ} (hlength : t.length < 4) (ht : ∀ d ∈ t, d < 64) (b : List UInt8) :
    decodeLoop code (61 :: s) t b = some (b ++ octets t) := by
  match t with
  | [] => simp [decodeLoop, octets]
  | [c1] => simp [decodeLoop, octets, decode]
  | [c1, c2] =>
      have h2 := ht c2 (by simp)
      have hfirst : UInt8.ofNat ((0 + 64 * (0 + 64 * (c2 + 64 * c1))) / 65536)
          = .ofNat (c1 * 4 + c2 / 16) := ofNat_congr (by omega)
      simp only [decodeLoop, if_true, decode, octets, Nat.reduceSub, List.take_succ_cons,
        List.take_zero, hfirst]
  | [c1, c2, c3] =>
      have h2 := ht c2 (by simp)
      have h3 := ht c3 (by simp)
      have hfirst : UInt8.ofNat ((0 + 64 * (c3 + 64 * (c2 + 64 * c1))) / 65536)
          = .ofNat (c1 * 4 + c2 / 16) := ofNat_congr (by omega)
      have hsecond : UInt8.ofNat ((0 + 64 * (c3 + 64 * (c2 + 64 * c1))) / 256)
          = .ofNat (c2 * 16 + c3 / 4) := ofNat_congr (by omega)
      simp only [decodeLoop, if_true, decode, octets, Nat.reduceSub, List.take_succ_cons,
        List.take_zero, hfirst, hsecond]
  | _ :: _ :: _ :: _ :: _ => simp at hlength; omega

/-- A whole group in front is used whatever comes. -/
lemma usedDigits_group {padded : Bool} {t : List ℕ} (ht : t.length = 4) (ds : List ℕ) :
    octets (usedDigits padded (t ++ ds)) = octets t ++ octets (usedDigits padded ds) := by
  have hgroup : t.length % 4 = 0 := by omega
  cases padded with
  | true => exact octets_append hgroup ds
  | false =>
      have htake : (t ++ ds).length / 4 * 4 = t.length + ds.length / 4 * 4 := by
        rw [List.length_append]
        omega
      simp only [usedDigits, Bool.false_eq_true, if_false, htake]
      rw [List.take_length_add_append]
      exact octets_append hgroup _

/-- One digit of the loop: a group of four goes to the buffer, and less is kept. -/
lemma decodeLoop_digit {d : ℕ} (hread : isRead c = true) (hskip : isSkipped c = false)
    (hindex : codeIndex code c = some d) {t : List ℕ} (hlength : t.length < 4)
    (ht : ∀ d ∈ t, d < 64) (b : List UInt8) :
    decodeLoop code (c :: s) t b =
      if t.length = 3 then decodeLoop code s [] (b ++ octets (t ++ [d]))
      else decodeLoop code s (t ++ [d]) b := by
  have hne : c ≠ 61 ∧ c ≠ 0 := by simpa [isRead] using hread
  match t with
  | [c1, c2, c3] =>
      have hgroup := decode_four c1 c2 (ht c3 (by simp)) (codeIndex_lt hindex)
      simp [decodeLoop, hne.1, hne.2, hskip, hindex, hgroup]
  | [] => simp [decodeLoop, hne.1, hne.2, hskip, hindex]
  | [c1] => simp [decodeLoop, hne.1, hne.2, hskip, hindex]
  | [c1, c2] => simp [decodeLoop, hne.1, hne.2, hskip, hindex]
  | _ :: _ :: _ :: _ :: _ => simp at hlength; omega

/-- **The loop of `Ldecode`.**  Induction on the text. -/
lemma decodeLoop_eq (code : Base64Code) (s : List UInt8) {t : List ℕ} (hlength : t.length < 4)
    (ht : ∀ d ∈ t, d < 64) (b : List UInt8) :
    decodeLoop code s t b = ((readLetters s).mapM (codeIndex code)).map fun ds =>
      b ++ octets (usedDigits (isPadded s) (t ++ ds)) := by
  induction s generalizing t b with
  | nil =>
      have hnone : t.length / 4 * 4 = 0 := by omega
      simp [decodeLoop, readLetters, isPadded, usedDigits, hnone, octets]
  | cons c s ih =>
      by_cases hend : c = 61
      · subst hend
        rw [decode_rest hlength ht]
        simp [readLetters, isPadded, usedDigits, isRead]
      · by_cases hzero : c = 0
        · subst hzero
          have hnone : t.length / 4 * 4 = 0 := by omega
          simp [decodeLoop, readLetters, isPadded, usedDigits, isRead, hnone, octets]
        · have hread : isRead c = true := by simp [isRead, hend, hzero]
          rw [readLetters_cons hread, isPadded_cons hread]
          cases hskip : isSkipped c with
          | true => simp only [decodeLoop, if_neg hend, if_neg hzero, hskip, if_true, ih hlength ht]
          | false =>
              rw [if_neg (by simp), List.mapM_cons]
              cases hindex : codeIndex code c with
              | none =>
                  simp only [decodeLoop, if_neg hend, if_neg hzero, hskip, Bool.false_eq_true,
                    if_false, hindex]
                  rfl
              | some d =>
                  have hd : ∀ e ∈ t ++ [d], e < 64 := by
                    intro e he
                    rcases List.mem_append.1 he with he | he
                    · exact ht e he
                    · exact List.mem_singleton.1 he ▸ codeIndex_lt hindex
                  rw [decodeLoop_digit hread hskip hindex hlength ht]
                  by_cases hfull : t.length = 3
                  · have hgroup (padded : Bool) (ds : List ℕ) :
                        octets (usedDigits padded (t ++ d :: ds))
                          = octets (t ++ [d]) ++ octets (usedDigits padded ds) := by
                      rw [← usedDigits_group (by simp [hfull]), List.append_assoc]
                      rfl
                    rw [if_pos hfull, ih (by simp) (by simp)]
                    cases (readLetters s).mapM (codeIndex code) with
                    | none => rfl
                    | some ds => simp [hgroup]
                  · rw [if_neg hfull, ih (by simp; omega) hd]
                    cases (readLetters s).mapM (codeIndex code) with
                    | none => rfl
                    | some ds => simp

/-- The loop of `Ldecode` begins with empty buffers. -/
lemma ldecode_digits (code : Base64Code) (s : List UInt8) :
    ldecode code s = ((readLetters s).mapM (codeIndex code)).map fun ds =>
      octets (usedDigits (isPadded s) ds) :=
  decodeLoop_eq code s (by simp) (by simp) []

lemma readLetters_filter (s : List UInt8) :
    readLetters (s.filter (!isSkipped ·)) = readLetters s := by
  induction s with
  | nil => rfl
  | cons c s ih =>
      cases hskip : isSkipped c with
      | true =>
          rw [List.filter_cons_of_neg (by simp [hskip]), readLetters_cons (isSkipped_isRead hskip),
            hskip, if_pos rfl, ih]
      | false =>
          rw [List.filter_cons_of_pos (by simp [hskip])]
          cases hread : isRead c with
          | true => rw [readLetters_cons hread, readLetters_cons hread, ih]
          | false => simp [readLetters, hread]

lemma isPadded_filter (s : List UInt8) : isPadded (s.filter (!isSkipped ·)) = isPadded s := by
  induction s with
  | nil => rfl
  | cons c s ih =>
      cases hskip : isSkipped c with
      | true =>
          rw [List.filter_cons_of_neg (by simp [hskip]), isPadded_cons (isSkipped_isRead hskip), ih]
      | false =>
          rw [List.filter_cons_of_pos (by simp [hskip])]
          cases hread : isRead c with
          | true => rw [isPadded_cons hread, isPadded_cons hread, ih]
          | false => simp [isPadded, hread]

/-- **What `decode` answers.**  The letters up to an equals sign or a zero, without the blanks,
are digits; one that is not in the table makes the answer nothing.  So blanks may be anywhere. -/
theorem ldecode_eq (code : Base64Code) (s : List UInt8) :
    ldecode code s = (((readLetters s).mapM (codeIndex code)).map fun ds =>
        octets (usedDigits (isPadded s) ds))
      ∧ ldecode code (s.filter (!isSkipped ·)) = ldecode code s := by
  refine ⟨ldecode_digits code s, ?_⟩
  rw [ldecode_digits, ldecode_digits, readLetters_filter, isPadded_filter]

end Decode

/-! ## What `encode` writes -/

/-- What is read for a digit, where the table reaches as far. -/
def letterAt (code : Base64Code) (d : ℕ) : UInt8 := code.letters[d]?.getD 0

/-- The table reaches as far as the digits; the zero behind it is read too. -/
abbrev Reaches (code : Base64Code) (ds : List ℕ) : Prop := ∀ d ∈ ds, d ≤ code.letters.length

/-- The equals signs behind the letters. -/
def padding (s : List UInt8) : List UInt8 := List.replicate ((3 - s.length % 3) % 3) 61

section Encode

variable {code : Base64Code}

lemma byteAt_code (d : ℕ) : byteAt (code.letters ++ [0]) d
    = if d ≤ code.letters.length then .done (letterAt code d) else .undefined := by
  by_cases hd : d ≤ code.letters.length
  · rw [if_pos hd]
    apply byteAt_of_get?
    rcases Nat.lt_or_eq_of_le hd with hlt | rfl
    · rw [List.getElem?_append_left hlt, letterAt, List.getElem?_eq_getElem hlt, Option.getD_some]
    · rw [List.getElem?_append_right (Nat.le_refl _), letterAt,
        List.getElem?_eq_none (Nat.le_refl _), Nat.sub_self]
      rfl
  · rw [if_neg hd, byteAt, List.getElem?_eq_none (by simp; omega)]

/-- The four reads of `encode`, and how many of its letters stay. -/
lemma encode_eq (c1 c2 c3 : UInt8) (n : ℕ) : encode code c1 c2 c3 n =
    if Reaches code (sextets [c1, c2, c3]) then
      .done (((sextets [c1, c2, c3]).map (letterAt code)).take (n + 1)
        ++ List.replicate (3 - n) 61)
    else .undefined := by
  have h1 := c1.toNat_lt
  have h2 := c2.toNat_lt
  have h3 := c3.toNat_lt
  have hd3 : (c3.toNat + 256 * (c2.toNat + 256 * c1.toNat)) % 64 = c3.toNat % 64 := by omega
  have hd2 : (c3.toNat + 256 * (c2.toNat + 256 * c1.toNat)) / 64 % 64
      = c2.toNat % 16 * 4 + c3.toNat / 64 := by omega
  have hd1 : (c3.toNat + 256 * (c2.toNat + 256 * c1.toNat)) / 64 / 64 % 64
      = c1.toNat % 4 * 16 + c2.toNat / 16 := by omega
  have hd0 : (c3.toNat + 256 * (c2.toNat + 256 * c1.toNat)) / 64 / 64 / 64 % 64
      = c1.toNat / 4 := by omega
  simp only [encode, hd3, hd2, hd1, hd0, byteAt_code, sextets, Reaches, List.forall_mem_cons]
  -- each read in its turn; one that is behind the table ends the call
  by_cases r3 : c3.toNat % 64 ≤ code.letters.length
  · by_cases r2 : c2.toNat % 16 * 4 + c3.toNat / 64 ≤ code.letters.length
    · by_cases r1 : c1.toNat % 4 * 16 + c2.toNat / 16 ≤ code.letters.length
      · by_cases r0 : c1.toNat / 4 ≤ code.letters.length
        · simp [r3, r2, r1, r0]
        · simp [r3, r2, r1, r0, CRun.bind]
      · simp [r3, r2, r1, CRun.bind]
    · simp [r3, r2, CRun.bind]
  · simp [r3, CRun.bind]

/-- The groups of `Lencode`.  Induction on the string. -/
lemma encodeLoop_eq (s : List UInt8) : encodeLoop code (s.length % 3) (s.length / 3) s =
    if Reaches code (sextets s) then .done ((sextets s).map (letterAt code) ++ padding s)
    else .undefined := by
  induction s using sextets.induct with
  | case1 a b c s ih =>
      have hdiv : (a :: b :: c :: s).length / 3 = s.length / 3 + 1 :=
        Nat.add_div_right (z := 3) s.length (by decide)
      have hmod : (a :: b :: c :: s).length % 3 = s.length % 3 := Nat.add_mod_right s.length 3
      have hpadding : padding (a :: b :: c :: s) = padding s := by rw [padding, padding, hmod]
      have hsextets : sextets (a :: b :: c :: s) = sextets [a, b, c] ++ sextets s := rfl
      rw [hdiv, hmod, encodeLoop, encode_eq, hpadding, hsextets, ih]
      by_cases hgroup : Reaches code (sextets [a, b, c])
      · by_cases hrest : Reaches code (sextets s)
        · have hall : Reaches code (sextets [a, b, c] ++ sextets s) :=
            List.forall_mem_append.2 ⟨hgroup, hrest⟩
          rw [if_pos hgroup, if_pos hrest, if_pos hall]
          simp [sextets]
        · rw [if_pos hgroup, if_neg hrest,
            if_neg fun hall => hrest (List.forall_mem_append.1 hall).2]
          rfl
      · rw [if_neg hgroup, if_neg fun hall => hgroup (List.forall_mem_append.1 hall).1]
        rfl
  | case2 a b =>
      have hloop : encodeLoop code ([a, b].length % 3) ([a, b].length / 3) [a, b]
          = encode code a b 0 2 := by simp [encodeLoop]
      have hiff : Reaches code (sextets [a, b, 0]) ↔ Reaches code (sextets [a, b]) := by
        simp [Reaches, sextets]
      simp only [hloop, encode_eq, hiff]
      rfl
  | case3 a =>
      have hloop : encodeLoop code ([a].length % 3) ([a].length / 3) [a]
          = encode code a 0 0 1 := by simp [encodeLoop]
      have hiff : Reaches code (sextets [a, 0, 0]) ↔ Reaches code (sextets [a]) := by
        simp [Reaches, sextets]
      simp only [hloop, encode_eq, hiff]
      rfl
  | case4 => simp [encodeLoop, sextets, padding, Reaches]

/-- The number of the groups is an `int`. -/
lemma lencode_groups {s : List UInt8} (hs : s.length / 3 < 2147483648) :
    lencode code s = encodeLoop code (s.length % 3) (s.length / 3) s := by
  have hmod : s.length / 3 % 4294967296 = s.length / 3 := Nat.mod_eq_of_lt (by omega)
  simp only [lencode, hmod, if_pos hs]

/-- **What `encode` writes.**  It is defined exactly if the table reaches as far as the digits. -/
theorem lencode_eq (code : Base64Code) {s : List UInt8} (hs : s.length / 3 < 2147483648) :
    lencode code s =
      if ∀ d ∈ sextets s, d ≤ code.letters.length then
        .done ((sextets s).map (letterAt code) ++ padding s)
      else .undefined := by
  rw [lencode_groups hs]
  exact encodeLoop_eq s

end Encode

/-- `"Hi"` -/
theorem lencode_hi : [72, 105].length / 3 < 2147483648 ∧
    lencode standardCode [72, 105] = .done [83, 71, 107, 61] :=
  ⟨by decide, (lencode_eq standardCode (s := [72, 105]) (by decide)).trans (by decide)⟩

/-! ## There and back -/

/-- A table that `decode` reads as `encode` wrote it. -/
structure Base64Code.Fits (code : Base64Code) : Prop where
  full : code.letters.length = 64
  once : code.letters.Nodup
  read : ∀ c ∈ code.letters, isRead c = true ∧ isSkipped c = false

section Fits

variable {code : Base64Code}

/-- What is behind the end of the table is a zero, and that is not read. -/
lemma lt_length_of_isRead {d : ℕ} (h : isRead (letterAt code d) = true) :
    d < code.letters.length := by
  by_contra hge
  rw [letterAt, List.getElem?_eq_none (Nat.le_of_not_lt hge)] at h
  exact absurd h (by decide)

lemma letterAt_eq {d : ℕ} (h : d < code.letters.length) : letterAt code d = code.letters[d] := by
  rw [letterAt, List.getElem?_eq_getElem h, Option.getD_some]

lemma codeIndex_letterAt (h : code.letters.Nodup) {d : ℕ} (hd : d < code.letters.length) :
    codeIndex code (letterAt code d) = some d := by
  rw [letterAt_eq hd, codeIndex, if_pos (List.getElem_mem hd), h.idxOf_getElem]

lemma mapM_codeIndex (h : code.letters.Nodup) {ds : List ℕ}
    (hds : ∀ d ∈ ds, d < code.letters.length) :
    (ds.map (letterAt code)).mapM (codeIndex code) = some ds := by
  induction ds with
  | nil => rfl
  | cons d ds ih =>
      rw [List.map_cons, List.mapM_cons, codeIndex_letterAt h (hds d (by simp)),
        ih fun e he => hds e (by simp [he])]
      rfl

/-- The letters of some digits, and equals signs behind them. -/
lemma readLetters_map (h : ∀ c ∈ code.letters, isRead c = true ∧ isSkipped c = false)
    {ds : List ℕ} (hds : ∀ d ∈ ds, d < code.letters.length) (n : ℕ) :
    readLetters (ds.map (letterAt code) ++ List.replicate n 61) = ds.map (letterAt code)
      ∧ isPadded (ds.map (letterAt code) ++ List.replicate n 61) = decide (0 < n) := by
  induction ds with
  | nil => cases n <;> simp [readLetters, isPadded, isRead, List.replicate_succ]
  | cons d ds ih =>
      have hd := hds d (by simp)
      have hmem : letterAt code d ∈ code.letters := letterAt_eq hd ▸ List.getElem_mem hd
      have hread := (h _ hmem).1
      have hrest := ih fun e he => hds e (by simp [he])
      rw [List.map_cons, List.cons_append, readLetters_cons hread, isPadded_cons hread, hrest.1,
        hrest.2, (h _ hmem).2]
      exact ⟨rfl, rfl⟩

/-- All digits of a string are used. -/
lemma usedDigits_sextets (s : List UInt8) :
    usedDigits (decide (0 < (3 - s.length % 3) % 3)) (sextets s) = sextets s := by
  by_cases hwhole : s.length % 3 = 0
  · have hfull : (sextets s).length / 4 * 4 = (sextets s).length := by
      rw [length_sextets, if_pos hwhole]
      omega
    simp only [hwhole, usedDigits, Nat.sub_zero, Nat.mod_self, Nat.lt_irrefl, decide_false,
      Bool.false_eq_true, if_false, hfull, List.take_length]
  · have hpositive : 0 < (3 - s.length % 3) % 3 := by omega
    rw [usedDigits, decide_eq_true hpositive, if_pos rfl]

/-- What a string of one digit, four times, says about the letter of the digit. -/
lemma letterAt_of_lossless {d : ℕ} (hd : d < 64)
    (h : ∃ w, lencode code (octets [d, d, d, d]) = .done w
      ∧ ldecode code w = some (octets [d, d, d, d])) :
    isRead (letterAt code d) = true ∧ isSkipped (letterAt code d) = false
      ∧ codeIndex code (letterAt code d) = some d := by
  obtain ⟨w, hencode, hdecode⟩ := h
  have hdigits : sextets (octets [d, d, d, d]) = [d, d, d, d] :=
    sextets_octets (by simp) (by simp [hd])
  have hw : w = [letterAt code d, letterAt code d, letterAt code d, letterAt code d] := by
    rw [lencode_groups (by simp [octets]), encodeLoop_eq, hdigits] at hencode
    split_ifs at hencode
    have hpadding : padding (octets [d, d, d, d]) = [] := by simp [padding, octets]
    rw [← CRun.done.inj hencode, hpadding, List.append_nil]
    rfl
  rw [ldecode_digits, hw] at hdecode
  cases hread : isRead (letterAt code d) with
  | false =>
      simp [readLetters, hread, octets, usedDigits] at hdecode
  | true =>
      cases hskip : isSkipped (letterAt code d) with
      | true => simp [readLetters, hread, hskip, octets, usedDigits] at hdecode
      | false =>
          cases hindex : codeIndex code (letterAt code d) with
          | none => simp [readLetters, hread, hskip, hindex] at hdecode
          | some e =>
              have he := codeIndex_lt hindex
              have hsame : octets [e, e, e, e] = octets [d, d, d, d] := by
                simpa [readLetters, hread, hskip, hindex, usedDigits] using hdecode
              have hdigits' := congrArg sextets hsame
              rw [hdigits, sextets_octets (by simp) (by simp [he])] at hdigits'
              rw [List.cons.inj hdigits' |>.1]
              exact ⟨rfl, rfl, rfl⟩

end Fits

/-- Nothing is lost exactly if the table fits. -/
lemma lossless_iff_fits (code : Base64Code) :
    (∀ s : List UInt8, s.length / 3 < 2147483648 →
      ∃ w, lencode code s = .done w ∧ ldecode code w = some s) ↔ code.Fits := by
  constructor
  · intro h
    have hletter (d : ℕ) (hd : d < 64) := letterAt_of_lossless hd (h (octets [d, d, d, d])
      (by simp [octets]))
    have hfull : code.letters.length = 64 :=
      Nat.le_antisymm code.size (lt_length_of_isRead (hletter 63 (by decide)).1)
    refine ⟨hfull, ?_, ?_⟩
    · rw [List.nodup_iff_injective_getElem]
      intro i j hij
      have hi := (hletter i (hfull ▸ i.isLt)).2.2
      have hj := (hletter j (hfull ▸ j.isLt)).2.2
      rw [letterAt_eq i.isLt] at hi
      rw [letterAt_eq j.isLt, ← show code.letters[i.1] = code.letters[j.1] from hij, hi] at hj
      exact Fin.ext (Option.some.inj hj)
    · intro c hc
      obtain ⟨i, hi, rfl⟩ := List.getElem_of_mem hc
      have hread := hletter i (hfull ▸ hi)
      rw [letterAt_eq hi] at hread
      exact ⟨hread.1, hread.2.1⟩
  · intro h s hs
    have hlt : ∀ d ∈ sextets s, d < code.letters.length := h.full ▸ sextets_lt
    have hreads := readLetters_map h.read hlt ((3 - s.length % 3) % 3)
    refine ⟨(sextets s).map (letterAt code) ++ padding s, ?_, ?_⟩
    · rw [lencode_groups hs, encodeLoop_eq, if_pos fun d hd => Nat.le_of_lt (hlt d hd)]
    · rw [ldecode_digits, padding, hreads.1, hreads.2, mapM_codeIndex h.once hlt, Option.map_some,
        usedDigits_sextets, octets_sextets]

/-! ## The table of the script -/

/-- What a string must be like that a script gives to `base64.code`. -/
def IsAlphabet (s : List UInt8) : Prop := s.Nodup ∧ ∀ c ∈ s, isRead c = true ∧ isSkipped c = false

lemma standardCode_fits : standardCode.Fits where
  full := rfl
  once := by decide
  read := by
    have hall : standardCode.letters.all (fun c => isRead c && !isSkipped c) = true := by decide
    simpa only [List.all_eq_true, Bool.and_eq_true, Bool.not_eq_true'] using hall

/-- A zero in the string cuts the table. -/
lemma lcode_fits_iff (code : Base64Code) {s : List UInt8} (hs : s.length = 64) :
    (lcode code s).Fits ↔ IsAlphabet s := by
  have hletters : (lcode code s).letters = s.takeWhile (· ≠ 0) := by rw [lcode, dif_pos hs]
  constructor
  · intro h
    have hall : s.takeWhile (· ≠ 0) = s :=
      (List.takeWhile_prefix _).eq_of_length (by rw [← hletters, h.full, hs])
    rw [hall] at hletters
    exact ⟨hletters ▸ h.once, hletters ▸ h.read⟩
  · intro h
    have hall : s.takeWhile (· ≠ 0) = s := by
      rw [List.takeWhile_eq_self_iff]
      intro c hc
      have hread := (h.2 c hc).1
      simp only [isRead, Bool.and_eq_true] at hread
      simpa using hread.2
    have hsame : (lcode code s).letters = s := by rw [hletters, hall]
    exact ⟨by rw [hsame, hs], by rw [hsame]; exact h.1, by rw [hsame]; exact h.2⟩

/-- The table is of the last string of 64 bytes. -/
lemma codeAfter_fits_iff (calls : List (List UInt8)) :
    (codeAfter calls).Fits ↔ ∀ s ∈ (calls.filter (·.length = 64)).getLast?, IsAlphabet s := by
  induction calls using List.reverseRecOn with
  | nil => simp [codeAfter, standardCode_fits]
  | append_singleton calls s ih =>
      rw [codeAfter, List.foldl_concat, ← codeAfter]
      by_cases hs : s.length = 64
      · simp [lcode_fits_iff _ hs, List.filter_append, hs]
      · rw [lcode, dif_neg hs, ih]
        simp [List.filter_append, hs]

/-- **When nothing is lost.**  After any calls of `base64.code`, everything that `encode` writes is
what `decode` answers with the string again, exactly if the last table of 64 bytes has no letter
twice, and no blank, equals sign or zero. -/
theorem base64_lossless_iff (calls : List (List UInt8)) :
    (∀ s : List UInt8, s.length / 3 < 2147483648 → ∃ w,
      lencode (codeAfter calls) s = .done w ∧ ldecode (codeAfter calls) w = some s)
      ↔ ∀ s ∈ (calls.filter (·.length = 64)).getLast?, IsAlphabet s := by
  rw [lossless_iff_fits, codeAfter_fits_iff]

end Luan
