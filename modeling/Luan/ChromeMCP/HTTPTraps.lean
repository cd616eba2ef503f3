import Luan.ChromeMCP.HTTP

/-!
# Which requests stop the process

`parseHTTP` runs on whatever a peer sends, before any authentication.  Its last steps add the
declared length to an offset and form a range; both have preconditions, and the guard between
them compares with the length of the buffer only.

* `takeBody_traps_iff` — a negative length, or one whose sum with the offset is no `Int`.
* `parseHTTP_safe_iff` — the requests that stop the process, by their text.
-/

namespace Luan

variable {U : UnicodeData}

/-! ## The declared length -/

/-- The request's last `Content-Length` has a value that is an `Int`. -/
def DeclaresLength (U : UnicodeData) (text : List Char) (n : Int) : Prop :=
  ∃ v, LastHeader U (componentsOnCRLF text).tail contentLengthKey v ∧ swiftInt? v = some n

lemma declaredLength_of_declares {text : List Char} {n : Int} (h : DeclaresLength U text n) :
    declaredLength U (headersOf U text) = n := by
  obtain ⟨v, hlast, hint⟩ := h
  rw [declaredLength, headersOf, get_foldl_addHeaderLine.mpr hlast, Option.getD_some, hint,
    Option.getD_some]

/-- A length other than zero has been declared. -/
lemma declares_of_declaredLength {text : List Char}
    (h : declaredLength U (headersOf U text) ≠ 0) :
    DeclaresLength U text (declaredLength U (headersOf U text)) := by
  cases hget : (headersOf U text).get U contentLengthKey with
  | none =>
      rw [declaredLength, hget] at h
      exact absurd rfl h
  | some v =>
      cases hint : swiftInt? v with
      | none =>
          rw [declaredLength, hget, Option.getD_some, hint] at h
          exact absurd rfl h
      | some n =>
          refine ⟨v, get_foldl_addHeaderLine.mp hget, ?_⟩
          rw [declaredLength, hget, Option.getD_some, hint, Option.getD_some]

/-! ## The body -/

lemma takeBody_overflow {data : List UInt8} {bodyStart : ℕ} {bodyLen : Int}
    (hover : intMax < bodyStart + bodyLen) :
    takeBody data bodyStart bodyLen = .error .overflow := by
  have hsum : addInt bodyStart bodyLen = .error .overflow := if_neg fun h => by omega
  rw [takeBody, hsum]
  rfl

/-- The guard lets a negative length pass, and the range is inverted. -/
lemma takeBody_negative {data : List UInt8} {bodyStart : ℕ} {bodyLen : Int}
    (hstart : bodyStart ≤ data.length) (hmin : intMin ≤ bodyLen) (hneg : bodyLen < 0)
    (hsmall : (bodyStart + bodyLen : Int) ≤ intMax) :
    takeBody data bodyStart bodyLen = .error .invertedRange := by
  have hsum : addInt bodyStart bodyLen = .ok (bodyStart + bodyLen) :=
    if_pos ⟨by omega, hsmall⟩
  have hrange : HalfOpenRange.make bodyStart (bodyStart + bodyLen) = .error .invertedRange :=
    dif_neg (by omega)
  rw [takeBody, hsum]
  dsimp only [bind, Except.bind]
  rw [if_neg (by omega), hrange]

/-- **When the body cannot be taken.** -/
lemma takeBody_traps_iff {data : List UInt8} {bodyStart : ℕ} {bodyLen : Int}
    (hstart : bodyStart ≤ data.length) (hmin : intMin ≤ bodyLen) :
    (∃ t, takeBody data bodyStart bodyLen = .error t)
      ↔ bodyLen < 0 ∨ intMax < bodyStart + bodyLen := by
  by_cases hover : intMax < bodyStart + bodyLen
  · exact iff_of_true ⟨.overflow, takeBody_overflow hover⟩ (Or.inr hover)
  · by_cases hneg : bodyLen < 0
    · exact iff_of_true ⟨_, takeBody_negative hstart hmin hneg (not_lt.mp hover)⟩ (Or.inl hneg)
    · obtain ⟨n, rfl⟩ := Int.eq_ofNat_of_zero_le (not_lt.mp hneg)
      refine iff_of_false ?_ (fun h => h.elim hneg hover)
      rintro ⟨t, ht⟩
      rw [takeBody_eq (by omega)] at ht
      cases ht

/-! ## The requests that stop the process -/

/-- **The text of a harmful request**: a complete head that declares a negative length, or one
whose sum with the length of the head is no `Int`. -/
def DeclaresBadLength (U : UnicodeData) (data : List UInt8) : Prop :=
  ∃ head text method n, ReadsHead U data head text method ∧ DeclaresLength U text n
    ∧ (n < 0 ∨ intMax < (head.length + headerEndMark.length : ℕ) + n)

lemma intMin_le_declaredLength (headers : Headers) : intMin ≤ declaredLength U headers := by
  simp only [declaredLength]
  cases hint : swiftInt? ((headers.get U contentLengthKey).getD []) with
  | none => decide
  | some n => exact (swiftInt?_bounds hint).1

/-- With a complete head, the declared length decides. -/
lemma declaresBadLength_iff {data head : List UInt8} {text method : List Char}
    (hcount : (data.length : Int) ≤ intMax) (h : ReadsHead U data head text method) :
    DeclaresBadLength U data
      ↔ declaredLength U (headersOf U text) < 0
        ∨ intMax < (head.length + headerEndMark.length : ℕ)
            + declaredLength U (headersOf U text) := by
  constructor
  · rintro ⟨head', text', method', n, h', hn, hbad⟩
    obtain ⟨rfl, rfl⟩ := h.unique h'
    rwa [declaredLength_of_declares hn]
  · intro hbad
    have hle := h.length_le
    refine ⟨head, text, method, _, h, declares_of_declaredLength ?_, hbad⟩
    intro hzero
    rw [hzero] at hbad
    omega

/-- **`parseHTTP` returns, unless the head declares a bad length.**  The buffer is a `Data`, with
a `count` that is an `Int`. -/
theorem parseHTTP_safe_iff (U : UnicodeData) (data : List UInt8)
    (hcount : (data.length : Int) ≤ intMax) :
    (∃ req?, parseHTTP U data = .ok req?) ↔ ¬ DeclaresBadLength U data := by
  by_cases hhead : ∃ head text method, ReadsHead U data head text method
  · obtain ⟨head, text, method, h⟩ := hhead
    rw [declaresBadLength_iff hcount h,
      ← takeBody_traps_iff h.length_le (intMin_le_declaredLength _), parseHTTP_of_head h]
    generalize takeBody data _ _ = body
    cases body with
    | error t => exact iff_of_false (fun ⟨_, h⟩ => by cases h) (not_not.mpr ⟨t, rfl⟩)
    | ok body => exact iff_of_true ⟨_, rfl⟩ fun ⟨_, h⟩ => by cases h
  · push Not at hhead
    refine iff_of_true ⟨none, parseHTTP_of_no_head hhead⟩ ?_
    rintro ⟨head, text, method, n, h, -⟩
    exact hhead head text method h

/-- The head of a request that declares a length of `-1`. -/
def negativeLengthHead : List Char := "POST / HTTP/1.1\r\nContent-Length: -1".toList

/-- The head of a request that declares a length of `Int.max`. -/
def hugeLengthHead : List Char :=
  "POST / HTTP/1.1\r\nContent-Length: 9223372036854775807".toList

lemma readsHead_negativeLengthHead :
    ReadsHead UnicodeData.ascii (asciiBytes negativeLengthHead ++ headerEndMark)
      (asciiBytes negativeLengthHead) negativeLengthHead "POST".toList where
  cut := ⟨[], by decide⟩
  decoded := decodeUTF8_asciiBytes (by decide)
  requestLine := ⟨_, _, "/".toList, ["HTTP/1.1".toList], rfl, by decide⟩

lemma readsHead_hugeLengthHead :
    ReadsHead UnicodeData.ascii (asciiBytes hugeLengthHead ++ headerEndMark)
      (asciiBytes hugeLengthHead) hugeLengthHead "POST".toList where
  cut := ⟨[], by decide⟩
  decoded := decodeUTF8_asciiBytes (by decide)
  requestLine := ⟨_, _, "/".toList, ["HTTP/1.1".toList], rfl, by decide⟩

/-- One small request, with a negative or a huge length, stops the process; nothing has been
authenticated. -/
theorem bad_content_length_traps :
    parseHTTP UnicodeData.ascii (asciiBytes negativeLengthHead ++ headerEndMark)
        = .error .invertedRange
      ∧ parseHTTP UnicodeData.ascii (asciiBytes hugeLengthHead ++ headerEndMark)
        = .error .overflow
      ∧ (accept UnicodeData.ascii
          [⟨asciiBytes negativeLengthHead ++ headerEndMark, false, false⟩]).phase = .trapped := by
  have hneg : parseHTTP UnicodeData.ascii (asciiBytes negativeLengthHead ++ headerEndMark)
      = .error .invertedRange := by
    have hlen : declaredLength UnicodeData.ascii (headersOf UnicodeData.ascii negativeLengthHead)
        = -1 := by decide
    rw [parseHTTP_of_head readsHead_negativeLengthHead, hlen,
      takeBody_negative (by decide) (by decide) (by decide) (by decide)]
    rfl
  have hhuge : parseHTTP UnicodeData.ascii (asciiBytes hugeLengthHead ++ headerEndMark)
      = .error .overflow := by
    have hlen : declaredLength UnicodeData.ascii (headersOf UnicodeData.ascii hugeLengthHead)
        = intMax := by decide
    rw [parseHTTP_of_head readsHead_hugeLengthHead, hlen, takeBody_overflow (by decide)]
    rfl
  refine ⟨hneg, hhuge, ?_⟩
  rw [accept, List.foldl_cons, List.foldl_nil, pump]
  dsimp only [Connection.fresh]
  rw [List.nil_append, hneg]

/-- The equivalence at the request that declares a length of `-1`. -/
theorem negative_content_length_unsafe :
    (∃ req?, parseHTTP UnicodeData.ascii (asciiBytes negativeLengthHead ++ headerEndMark)
        = .ok req?)
      ↔ ¬ DeclaresBadLength UnicodeData.ascii (asciiBytes negativeLengthHead ++ headerEndMark) :=
  parseHTTP_safe_iff _ _ (by decide)

end Luan
