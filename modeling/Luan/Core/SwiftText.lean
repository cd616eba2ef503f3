import Luan.Core.Search
import Mathlib.Data.List.DropRight

/-!
# Swift integers, ranges and text

The parts of Swift's standard library and Foundation that a byte-level parser rests on.

* `addInt`, `HalfOpenRange.make`, `subdata` — operations with a precondition.  A violated
  precondition stops the process; here it is the error of an `Except Trap`.
* `swiftInt?`, `SwiftInt` — `Int.init(_ text: String)`, and the type of its values.
* `hexText` — bytes in hexadecimal.
* `UnicodeData` — the tables behind `Character`, `lowercased()` and string equality.  They are a
  parameter, fixed only on ASCII text, so that results about arbitrary text hold for every
  version of the tables.
* `trimWhitespace`, `componentsOnCRLF`, `splitOnCharacter`, `splitOnNewlines`, `cutAtCharacter`,
  `hasPrefix`, `hasSuffix`, `containsText`, `decodeUTF8` — the operations on text.  A text is the
  list of its Unicode scalars.
-/

namespace Luan

/-! ## Operations with a precondition -/

/-- Why the process stops. -/
inductive Trap
  | overflow
  | invertedRange
  | outOfBounds
  deriving DecidableEq, Repr

/-- `Int.max` -/
def intMax : Int := 9223372036854775807

/-- `Int.min` -/
def intMin : Int := -9223372036854775808

/-- `a + b` on `Int`. -/
def addInt (a b : Int) : Except Trap Int :=
  if intMin ≤ a + b ∧ a + b ≤ intMax then .ok (a + b) else .error .overflow

/-- A `Range<Int>`: one with its bounds the wrong way round cannot be formed. -/
structure HalfOpenRange where
  lower : Int
  upper : Int
  lower_le_upper : lower ≤ upper

/-- `lower..<upper` -/
def HalfOpenRange.make (lower upper : Int) : Except Trap HalfOpenRange :=
  if h : lower ≤ upper then .ok ⟨lower, upper, h⟩ else .error .invertedRange

/-- `data.subdata(in: range)` -/
def subdata (data : List UInt8) (range : HalfOpenRange) : Except Trap (List UInt8) :=
  if 0 ≤ range.lower ∧ range.upper ≤ data.length then
    .ok ((data.drop range.lower.toNat).take (range.upper - range.lower).toNat)
  else .error .outOfBounds

/-! ## `Int` from a text -/

/-- The value of one or more decimal digits. -/
def digitsValue? (ds : List Char) : Option ℕ :=
  if ds ≠ [] ∧ ds.all Char.isDigit then
    some (ds.foldl (fun n c => 10 * n + (c.toNat - '0'.toNat)) 0)
  else none

/-- `Int(text)`: an optional sign and digits, if the value is an `Int`. -/
def swiftInt? (text : List Char) : Option Int :=
  let value? : Option Int :=
    match text with
    | '-' :: ds => (digitsValue? ds).map fun n => - (n : Int)
    | '+' :: ds => (digitsValue? ds).map fun n => (n : Int)
    | ds => (digitsValue? ds).map fun n => (n : Int)
  value?.filter fun n => intMin ≤ n ∧ n ≤ intMax

lemma swiftInt?_bounds {text : List Char} {n : Int} (h : swiftInt? text = some n) :
    intMin ≤ n ∧ n ≤ intMax := by
  have hfilter := (Option.filter_eq_some_iff.mp h).2
  simpa using hfilter

/-- The values of the type `Int`. -/
abbrev SwiftInt := { n : Int // intMin ≤ n ∧ n ≤ intMax }

/-- `Int(text)`, as a value of its type. -/
def swiftIntValue? (text : List Char) : Option SwiftInt :=
  (swiftInt? text).pmap (fun n h => ⟨n, h⟩) fun _ h => swiftInt?_bounds h

lemma digitsValue?_toDigits (n : ℕ) : digitsValue? (Nat.toDigits 10 n) = some n := by
  have hdigits : Nat.toDigits 10 n ≠ [] ∧ (Nat.toDigits 10 n).all Char.isDigit = true := by
    refine ⟨Nat.toDigits_ne_nil, List.all_eq_true.mpr fun c hc => ?_⟩
    exact Nat.isDigit_of_mem_toDigits (by decide) (by decide) hc
  rw [digitsValue?, if_pos hdigits, ← Nat.ofDigitChars_eq_foldl, Nat.ofDigitChars_ten_toDigits]

/-- A text of digits has no sign. -/
lemma swiftInt?_digits {ds : List Char} (h : ∀ c ∈ ds, c.isDigit = true) :
    swiftInt? ds = ((digitsValue? ds).map fun n => (n : Int)).filter
      fun n => intMin ≤ n ∧ n ≤ intMax := by
  unfold swiftInt?
  split
  · exact absurd (h '-' List.mem_cons_self) (by decide)
  · exact absurd (h '+' List.mem_cons_self) (by decide)
  · rfl

/-- **`Int(String(n))` is `n`.** -/
lemma swiftIntValue?_toString (n : SwiftInt) : swiftIntValue? (toString n.1).toList = some n := by
  obtain ⟨n, hn⟩ := n
  have hint : swiftInt? (toString n).toList = some n := by
    rw [Int.toString_eq_repr, Int.repr_eq_if]
    split_ifs with hsign
    · rw [Nat.toList_repr, swiftInt?_digits (fun c hc =>
        Nat.isDigit_of_mem_toDigits (by decide) (by decide) hc), digitsValue?_toDigits]
      show Option.filter _ (some (n.toNat : Int)) = some n
      rw [Int.toNat_of_nonneg hsign]
      exact Option.filter_some_pos (by simpa using hn)
    · rw [String.toList_append, Nat.toList_repr]
      show ((digitsValue? (Nat.toDigits 10 (-n).toNat)).map fun k => -(k : Int)).filter _ = _
      rw [digitsValue?_toDigits]
      show Option.filter _ (some (-((-n).toNat : Int))) = some n
      rw [Int.toNat_of_nonneg (by omega), Int.neg_neg]
      exact Option.filter_some_pos (by simpa using hn)
  rw [swiftIntValue?, Option.pmap_eq_some_iff]
  exact ⟨n, hn, hint, rfl⟩

/-- `bytes.map { String(format: "%02x", $0) }.joined()` -/
def hexText (bytes : List UInt8) : String :=
  String.ofList
    (bytes.flatMap fun b => [Nat.digitChar (b.toNat / 16), Nat.digitChar (b.toNat % 16)])

lemma hexText_ne_empty {bytes : List UInt8} (h : bytes ≠ []) : hexText bytes ≠ "" := by
  intro hempty
  have hlist := congrArg String.toList hempty
  cases bytes with
  | nil => exact h rfl
  | cons b bytes => simp [hexText] at hlist

/-! ## Unicode -/

/-- An ASCII text. -/
def IsASCII (s : List Char) : Prop := ∀ c ∈ s, c.toNat < 128

instance (s : List Char) : Decidable (IsASCII s) :=
  decidable_of_iff (s.all fun c => decide (c.toNat < 128)) (by simp [IsASCII])

/-- **What Swift takes from the Unicode tables.**  The laws are the documented behaviour on
ASCII: every scalar but the CR of a CRLF is a `Character` of its own, lower case changes the
letters A to Z, and no two texts are canonically equivalent. -/
structure UnicodeData where
  /-- The `Character`s of a text. -/
  graphemes : List Char → List (List Char)
  /-- `lowercased()` -/
  lowercased : List Char → List Char
  /-- Strings are equal, also as dictionary keys, if their normal forms are. -/
  nfc : List Char → List Char
  graphemes_ascii : ∀ s, IsASCII s → '\r' ∉ s → graphemes s = s.map fun c => [c]
  lowercased_ascii : ∀ s, IsASCII s → lowercased s = s.map Char.toLower
  nfc_ascii : ∀ s, IsASCII s → nfc s = s

/-- Tables that treat every text as ASCII text is treated. -/
def UnicodeData.ascii : UnicodeData where
  graphemes s := s.map fun c => [c]
  lowercased s := s.map Char.toLower
  nfc s := s
  graphemes_ascii _ _ _ := rfl
  lowercased_ascii _ _ := rfl
  nfc_ascii _ _ := rfl

/-- `CharacterSet.whitespaces`: the space separators of Unicode and the tabulator. -/
def isWhitespace (c : Char) : Bool :=
  let n := c.toNat
  n = 0x09 ∨ n = 0x20 ∨ n = 0xA0 ∨ n = 0x1680 ∨ (0x2000 ≤ n ∧ n ≤ 0x200A) ∨ n = 0x202F
    ∨ n = 0x205F ∨ n = 0x3000

/-- `trimmingCharacters(in: .whitespaces)` -/
def trimWhitespace (s : List Char) : List Char :=
  (s.dropWhile isWhitespace).rdropWhile isWhitespace

/-- `components(separatedBy: "\r\n")` -/
def componentsOnCRLF : List Char → List (List Char)
  | [] => [[]]
  | '\r' :: '\n' :: rest => [] :: componentsOnCRLF rest
  | c :: rest =>
      match componentsOnCRLF rest with
      | [] => [[c]]
      | line :: lines => (c :: line) :: lines

/-- `split(separator: c)`, which leaves out empty pieces. -/
def splitOnCharacter (U : UnicodeData) (c : Char) (s : List Char) : List (List Char) :=
  (((U.graphemes s).splitOn [c]).filter (· ≠ [])).map List.flatten

/-- The text before and behind the first `c`, by `firstIndex(of: c)`. -/
def cutAtCharacter (U : UnicodeData) (c : Char) (s : List Char) :
    Option (List Char × List Char) :=
  match (U.graphemes s).dropInfix? [[c]] with
  | some (before, behind) => some (before.flatten, behind.flatten)
  | none => none

/-- `split(whereSeparator: { $0 == "\n" || $0 == "\r" })`; a CRLF is a `Character` of its own. -/
def splitOnNewlines (U : UnicodeData) (s : List Char) : List (List Char) :=
  (((U.graphemes s).splitOnP fun g => g = ['\n'] ∨ g = ['\r']).filter (· ≠ [])).map List.flatten

/-- `s.hasPrefix(p)` -/
def hasPrefix (U : UnicodeData) (s p : List Char) : Bool :=
  ((U.graphemes p).map U.nfc).isPrefixOf ((U.graphemes s).map U.nfc)

/-- `s.hasSuffix(p)` -/
def hasSuffix (U : UnicodeData) (s p : List Char) : Bool :=
  ((U.graphemes p).map U.nfc).isSuffixOf ((U.graphemes s).map U.nfc)

/-- `s.contains(needle)` -/
def containsText (U : UnicodeData) (s needle : List Char) : Bool :=
  (((U.graphemes s).map U.nfc).dropInfix? ((U.graphemes needle).map U.nfc)).isSome

/-- `String(data:encoding: .utf8)` -/
def decodeUTF8 (bytes : List UInt8) : Option (List Char) :=
  bytes.toByteArray.utf8Decode?.map Array.toList

/-- The bytes of an ASCII text. -/
def asciiBytes (s : List Char) : List UInt8 := s.map fun c => UInt8.ofNat c.toNat

/-! ## The operations on ASCII text -/

@[simp] lemma asciiBytes_append (s t : List Char) :
    asciiBytes (s ++ t) = asciiBytes s ++ asciiBytes t := List.map_append

lemma IsASCII.append {s t : List Char} (hs : IsASCII s) (ht : IsASCII t) : IsASCII (s ++ t) := by
  intro c hc
  rcases List.mem_append.mp hc with hc | hc
  · exact hs c hc
  · exact ht c hc

lemma IsASCII.toLower {s : List Char} (hs : IsASCII s) : IsASCII (s.map Char.toLower) := by
  intro c hc
  obtain ⟨d, hd, rfl⟩ := List.mem_map.mp hc
  have hlt : d.val.toNat < 128 := hs d hd
  unfold Char.toLower
  split_ifs with hletter
  · have hle := UInt32.le_iff_toNat_le.mp hletter.2
    have hZ : 'Z'.val.toNat = 90 := rfl
    have hshift : ('a'.val - 'A'.val).toNat = 32 := rfl
    change (d.val + _).toNat < 128
    rw [UInt32.toNat_add]
    omega
  · exact hlt

/-- A byte of an ASCII text determines its character. -/
lemma mem_asciiBytes {s : List Char} (hs : IsASCII s) {c : Char} (hc : c.toNat < 128) :
    UInt8.ofNat c.toNat ∈ asciiBytes s ↔ c ∈ s := by
  constructor
  · intro h
    obtain ⟨d, hd, heq⟩ := List.mem_map.mp h
    have hnat := congrArg UInt8.toNat heq
    have hd' := hs d hd
    simp only [UInt8.toNat_ofNat'] at hnat
    have hcd : d = c := Char.toNat_inj.mp (by omega)
    exact hcd ▸ hd
  · intro h
    exact List.mem_map_of_mem h

/-- **UTF-8 of ASCII text.** -/
lemma decodeUTF8_asciiBytes {s : List Char} (hs : IsASCII s) :
    decodeUTF8 (asciiBytes s) = some s := by
  have hencode : (asciiBytes s).toByteArray = s.utf8Encode := by
    rw [List.utf8Encode]
    congr 1
    induction s with
    | nil => rfl
    | cons c s ih =>
        have hc : c.toNat < 128 := hs c List.mem_cons_self
        rw [List.flatMap_cons, ← ih fun d hd => hs d (List.mem_cons_of_mem c hd),
          String.utf8EncodeChar_eq_singleton]
        · rfl
        · rw [Char.utf8Size_eq_one_iff, UInt32.le_iff_toNat_le]
          exact Nat.le_of_lt_succ hc
  rw [decodeUTF8, hencode, List.utf8Decode?_utf8Encode]
  rfl

lemma componentsOnCRLF_line {line : List Char} (h : '\r' ∉ line) :
    componentsOnCRLF line = [line] := by
  induction line with
  | nil => rfl
  | cons c line ih =>
      rw [List.mem_cons, not_or] at h
      rw [componentsOnCRLF, ih h.2]
      rintro rest rfl
      exact absurd rfl h.1

lemma componentsOnCRLF_append {line : List Char} (h : '\r' ∉ line) (rest : List Char) :
    componentsOnCRLF (line ++ '\r' :: '\n' :: rest) = line :: componentsOnCRLF rest := by
  induction line with
  | nil => rfl
  | cons c line ih =>
      rw [List.mem_cons, not_or] at h
      rw [List.cons_append, componentsOnCRLF, ih h.2]
      rintro rest' rfl
      exact absurd rfl h.1

lemma singleton_mem_map {c : Char} {s : List Char} : [c] ∈ s.map (fun d => [d]) ↔ c ∈ s := by
  simp

/-- Words with one separator between them. -/
lemma splitOnCharacter_cons (U : UnicodeData) {c : Char} {word rest : List Char}
    (hword : c ∉ word) (hne : word ≠ []) (hascii : IsASCII (word ++ c :: rest))
    (hline : '\r' ∉ word ++ c :: rest) :
    splitOnCharacter U c (word ++ c :: rest) = word :: splitOnCharacter U c rest := by
  have hrest : IsASCII rest := fun d hd => hascii d (by simp [hd])
  have hrline : '\r' ∉ rest := fun h => hline (by simp [h])
  have hcut : [c] ∉ word.map fun d => [d] := singleton_mem_map.not.mpr hword
  have hflat : (word.map fun d => [d]).flatten = word := by
    rw [← List.flatMap_def, List.flatMap_singleton']
  rw [splitOnCharacter, splitOnCharacter, U.graphemes_ascii _ hascii hline,
    U.graphemes_ascii _ hrest hrline, List.map_append, List.map_cons,
    List.splitOn_append_cons_self_of_not_mem hcut, List.filter_cons_of_pos (by simpa using hne),
    List.map_cons, hflat]

/-- Cutting at the first of several. -/
lemma cutAtCharacter_append (U : UnicodeData) {c : Char} {before behind : List Char}
    (hfree : c ∉ before) (hascii : IsASCII (before ++ c :: behind))
    (hline : '\r' ∉ before ++ c :: behind) :
    cutAtCharacter U c (before ++ c :: behind) = some (before, behind) := by
  have hfree' : [c] ∉ before.map fun d => [d] := singleton_mem_map.not.mpr hfree
  rw [cutAtCharacter, U.graphemes_ascii _ hascii hline, List.map_append, List.map_cons,
    dropInfix?_singleton hfree']
  simp [← List.flatMap_def]

/-- White space around a trimmed text is trimmed. -/
lemma trimWhitespace_pad {front text behind : List Char} (htext : trimWhitespace text = text)
    (hfront : ∀ c ∈ front, isWhitespace c = true) (hbehind : ∀ c ∈ behind, isWhitespace c = true) :
    trimWhitespace (front ++ text ++ behind) = text := by
  rw [trimWhitespace, List.append_assoc, List.dropWhile_append_of_pos hfront]
  cases text with
  | nil =>
      rw [List.nil_append, List.dropWhile_eq_nil_iff.mpr hbehind]
      rfl
  | cons c text =>
      have hc : ¬ isWhitespace c = true := by
        intro hc
        rw [trimWhitespace, List.dropWhile_cons_of_pos hc] at htext
        have hle := ((List.rdropWhile_prefix isWhitespace _).sublist.trans
          (List.dropWhile_sublist (l := text) isWhitespace)).length_le
        rw [htext, List.length_cons] at hle
        omega
      rw [trimWhitespace, List.dropWhile_cons_of_neg hc] at htext
      rw [List.cons_append, List.dropWhile_cons_of_neg hc, ← List.cons_append, List.rdropWhile,
        List.reverse_append, List.dropWhile_append_of_pos (by simpa using hbehind)]
      exact htext

end Luan
