import Luan.ChromeMCP.HTTP

/-!
# Requests on a byte stream

A well-formed request arrives in pieces, cut anywhere, and something may follow it.  The receive
loop of `accept` parses everything received so far again and again.

* `dropInfix?_lines` — the first empty line of a head is behind its last line.
* `parseHTTP_serialize` — what the parser makes of a complete head and any bytes behind it; the
  rest of the file follows from this one.
* `parseHTTP_of_short` — too few bytes are no request.
* `accept_reads_request` — the loop calls `process` once, with the request that was sent.
-/

namespace Luan

/-! ## Requests -/

/-- One header as it is sent, with white space around the value. -/
structure HeaderLine where
  name : List Char
  value : List Char
  padBefore : List Char
  padBehind : List Char

/-- The header's line. -/
def HeaderLine.text (h : HeaderLine) : List Char :=
  h.name ++ ':' :: (h.padBefore ++ h.value ++ h.padBehind)

/-- The name under which the parser files the header. -/
def HeaderLine.key (h : HeaderLine) : List Char := h.name.map Char.toLower

/-- A request as it is sent. -/
structure RequestMessage where
  method : List Char
  target : List Char
  version : List Char
  headers : List HeaderLine
  body : List UInt8

/-- ASCII text without CR and LF. -/
structure IsLine (s : List Char) : Prop where
  ascii : IsASCII s
  no_cr : '\r' ∉ s
  no_lf : '\n' ∉ s

/-- `METHOD target version` -/
def RequestMessage.requestLine (m : RequestMessage) : List Char :=
  m.method ++ ' ' :: (m.target ++ ' ' :: m.version)

/-- The head, without the empty line at its end. -/
def RequestMessage.head (m : RequestMessage) : List Char :=
  m.requestLine ++ m.headers.flatMap fun h => '\r' :: '\n' :: h.text

/-- The bytes of a request. -/
def RequestMessage.serialize (m : RequestMessage) : List UInt8 :=
  asciiBytes m.head ++ headerEndMark ++ m.body

/-- Names without a colon, names and values trimmed, blanks around the value. -/
structure HeaderLine.WellFormed (h : HeaderLine) : Prop where
  name_line : IsLine h.name
  value_line : IsLine h.value
  no_colon : ':' ∉ h.name
  name_trimmed : trimWhitespace h.name = h.name
  value_trimmed : trimWhitespace h.value = h.value
  padBefore_blank : ∀ c ∈ h.padBefore, c = ' ' ∨ c = '\t'
  padBehind_blank : ∀ c ∈ h.padBehind, c = ' ' ∨ c = '\t'

/-- **A well-formed request.**  `fits` says that there is a `Data` with these bytes. -/
structure RequestMessage.WellFormed (m : RequestMessage) : Prop where
  method_line : IsLine m.method
  method_word : m.method ≠ [] ∧ ' ' ∉ m.method
  target_line : IsLine m.target
  target_word : m.target ≠ [] ∧ ' ' ∉ m.target
  version_line : IsLine m.version
  headers_wellFormed : ∀ h ∈ m.headers, h.WellFormed
  names_distinct : (m.headers.map HeaderLine.key).Nodup
  length_declared :
    ∃ h ∈ m.headers, h.key = contentLengthKey ∧ swiftInt? h.value = some (m.body.length : Int)
  fits : (m.serialize.length : Int) ≤ intMax

/-! ## The end of the head -/

/-- A word that goes on with a letter which another one does not have contains all of it. -/
lemma prefix_of_letter_not_mem {α : Type*} {a : α} {l u y z : List α} (hl : a ∉ l)
    (h : u ++ a :: y = l ++ z) : ∃ w, u = l ++ w ∧ w ++ a :: y = z := by
  rcases List.append_eq_append_iff.mp h with ⟨w, rfl, hw⟩ | ⟨w, rfl, hw⟩
  · cases w with
    | nil => exact ⟨[], by simp, hw⟩
    | cons b w =>
        obtain ⟨rfl, -⟩ := List.cons.inj hw
        simp at hl
  · exact ⟨w, rfl, hw.symm⟩

/-- **The first empty line is behind the last line.**  Induction on the lines: an empty line
cannot begin in a line, which has no CR, nor right behind it, where the next line begins. -/
lemma dropInfix?_lines {first : List UInt8} {lines : List (List UInt8)} (hfirst : 13 ∉ first)
    (hlines : ∀ l ∈ lines, 13 ∉ l ∧ l ≠ []) (behind : List UInt8) :
    (first ++ lines.flatMap (fun l => 13 :: 10 :: l) ++ headerEndMark ++ behind).dropInfix?
        headerEndMark
      = some (first ++ lines.flatMap (fun l => 13 :: 10 :: l), behind) := by
  refine dropInfix?_eq_some.mpr ⟨rfl, ?_⟩
  induction lines generalizing first with
  | nil =>
      intro u v h
      have h' : u ++ 13 :: ([10, 13, 10] ++ v) = first ++ (headerEndMark ++ behind) := by
        simpa [headerEndMark] using h
      obtain ⟨w, rfl, -⟩ := prefix_of_letter_not_mem hfirst h'
      simp
  | cons l lines ih =>
      obtain ⟨hl, hlne⟩ := hlines l List.mem_cons_self
      have ih' := ih hl fun l' hl' => hlines l' (List.mem_cons_of_mem l hl')
      intro u v h
      have h' : u ++ 13 :: ([10, 13, 10] ++ v)
          = first ++ 13 :: 10 :: (l ++ lines.flatMap (fun l => 13 :: 10 :: l)
              ++ headerEndMark ++ behind) := by
        simpa [headerEndMark] using h
      obtain ⟨w, rfl, hw⟩ := prefix_of_letter_not_mem hfirst h'
      match w with
      | [] =>
          -- behind the line's CRLF comes the next line
          cases l with
          | nil => exact absurd rfl hlne
          | cons b l =>
              simp only [List.nil_append, List.cons_append, List.cons.injEq, true_and] at hw
              exact absurd (List.mem_cons.mpr (Or.inl hw.1)) hl
      | [b] =>
          simp at hw
      | b :: c :: w =>
          simp only [List.cons_append, List.cons.injEq] at hw
          have hle := ih' w v (by simpa [headerEndMark] using hw.2.2)
          simp only [List.length_append, List.length_cons, List.flatMap_cons] at hle ⊢
          omega

section WellFormed

variable {U : UnicodeData} {m : RequestMessage}

lemma IsLine.cons_ne {s : List Char} (hs : IsLine s) : (13 : UInt8) ∉ asciiBytes s := by
  intro h
  exact hs.no_cr ((mem_asciiBytes hs.ascii (c := '\r') (by decide)).mp h)

lemma IsLine.append {s t : List Char} (hs : IsLine s) (ht : IsLine t) : IsLine (s ++ t) where
  ascii := hs.ascii.append ht.ascii
  no_cr h := (List.mem_append.mp h).elim hs.no_cr ht.no_cr
  no_lf h := (List.mem_append.mp h).elim hs.no_lf ht.no_lf

/-- A separator that is an ASCII character itself. -/
lemma IsLine.append_cons {s t : List Char} {c : Char} (hs : IsLine s) (ht : IsLine t)
    (hc : c.toNat < 128 ∧ c ≠ '\r' ∧ c ≠ '\n') : IsLine (s ++ c :: t) where
  ascii := hs.ascii.append fun d hd => by
    rcases List.mem_cons.mp hd with rfl | hd
    · exact hc.1
    · exact ht.ascii d hd
  no_cr h := by
    rcases List.mem_append.mp h with h | h
    · exact hs.no_cr h
    · exact (List.mem_cons.mp h).elim (fun h => hc.2.1 h.symm) ht.no_cr
  no_lf h := by
    rcases List.mem_append.mp h with h | h
    · exact hs.no_lf h
    · exact (List.mem_cons.mp h).elim (fun h => hc.2.2 h.symm) ht.no_lf

lemma isLine_blanks {s : List Char} (hs : ∀ c ∈ s, c = ' ' ∨ c = '\t') : IsLine s where
  ascii c hc := by
    rcases hs c hc with rfl | rfl <;> decide
  no_cr h := by
    rcases hs _ h with h | h <;> revert h <;> decide
  no_lf h := by
    rcases hs _ h with h | h <;> revert h <;> decide

lemma isWhitespace_blanks {s : List Char} (hs : ∀ c ∈ s, c = ' ' ∨ c = '\t') :
    ∀ c ∈ s, isWhitespace c = true := by
  intro c hc
  rcases hs c hc with rfl | rfl <;> decide

lemma RequestMessage.WellFormed.isLine_requestLine (hm : m.WellFormed) : IsLine m.requestLine :=
  hm.method_line.append_cons (hm.target_line.append_cons hm.version_line (by decide)) (by decide)

lemma HeaderLine.WellFormed.isLine_text {h : HeaderLine} (hh : h.WellFormed) : IsLine h.text :=
  hh.name_line.append_cons
    (((isLine_blanks hh.padBefore_blank).append hh.value_line).append
      (isLine_blanks hh.padBehind_blank)) (by decide)

lemma HeaderLine.text_ne_nil (h : HeaderLine) : h.text ≠ [] := by
  simp [HeaderLine.text]

/-! ## What the parser reads in the head -/

lemma RequestMessage.WellFormed.isASCII_head (hm : m.WellFormed) : IsASCII m.head := by
  refine hm.isLine_requestLine.ascii.append fun c hc => ?_
  obtain ⟨h, hh, hc⟩ := List.mem_flatMap.mp hc
  rcases List.mem_cons.mp hc with rfl | hc
  · decide
  · rcases List.mem_cons.mp hc with rfl | hc
    · decide
    · exact (hm.headers_wellFormed h hh).isLine_text.ascii c hc

/-- The lines of the head. -/
lemma RequestMessage.WellFormed.components_head (hm : m.WellFormed) :
    componentsOnCRLF m.head = m.requestLine :: m.headers.map HeaderLine.text := by
  have hgen : ∀ (first : List Char) (headers : List HeaderLine), IsLine first →
      (∀ h ∈ headers, h.WellFormed) →
      componentsOnCRLF (first ++ headers.flatMap fun h => '\r' :: '\n' :: h.text)
        = first :: headers.map HeaderLine.text := by
    intro first headers
    induction headers generalizing first with
    | nil =>
        intro hfirst _
        rw [List.flatMap_nil, List.append_nil, componentsOnCRLF_line hfirst.no_cr]
        rfl
    | cons h headers ih =>
        intro hfirst hheaders
        rw [List.flatMap_cons, List.cons_append, List.cons_append,
          componentsOnCRLF_append hfirst.no_cr,
          ih h.text (hheaders h List.mem_cons_self).isLine_text
            fun h' hh' => hheaders h' (List.mem_cons_of_mem h hh')]
        rfl
  exact hgen _ _ hm.isLine_requestLine hm.headers_wellFormed

lemma RequestMessage.WellFormed.hasRequestLine (hm : m.WellFormed) :
    HasRequestLine U m.head m.method := by
  have hline := hm.isLine_requestLine
  have hrest : IsLine (m.target ++ ' ' :: m.version) :=
    hm.target_line.append_cons hm.version_line (by decide)
  refine ⟨m.requestLine, _, m.target, splitOnCharacter U ' ' m.version, hm.components_head, ?_⟩
  rw [RequestMessage.requestLine,
    splitOnCharacter_cons U hm.method_word.2 hm.method_word.1 hline.ascii hline.no_cr,
    splitOnCharacter_cons U hm.target_word.2 hm.target_word.1 hrest.ascii hrest.no_cr]

/-- The parser finds the head. -/
lemma RequestMessage.WellFormed.readsHead (hm : m.WellFormed) (behind : List UInt8) :
    ReadsHead U (asciiBytes m.head ++ headerEndMark ++ behind) (asciiBytes m.head) m.head
      m.method where
  cut := by
    have hbytes : asciiBytes m.head
        = asciiBytes m.requestLine
          ++ (m.headers.map fun h => asciiBytes h.text).flatMap fun l => 13 :: 10 :: l := by
      rw [RequestMessage.head, asciiBytes_append, asciiBytes, asciiBytes, List.map_flatMap,
        List.flatMap_map]
      rfl
    refine ⟨behind, ?_⟩
    rw [hbytes]
    refine dropInfix?_lines hm.isLine_requestLine.cons_ne (fun l hl => ?_) behind
    obtain ⟨h, hh, rfl⟩ := List.mem_map.mp hl
    refine ⟨(hm.headers_wellFormed h hh).isLine_text.cons_ne, ?_⟩
    simpa [asciiBytes] using h.text_ne_nil
  decoded := decodeUTF8_asciiBytes hm.isASCII_head
  requestLine := hm.hasRequestLine

/-- Name and value of a header. -/
lemma HeaderLine.WellFormed.headerField? {h : HeaderLine} (hh : h.WellFormed) :
    headerField? U h.text = some (h.key, h.value) := by
  have hline := hh.isLine_text
  rw [Luan.headerField?, HeaderLine.text,
    cutAtCharacter_append U hh.no_colon hline.ascii hline.no_cr, Option.map_some, hh.name_trimmed,
    U.lowercased_ascii _ hh.name_line.ascii,
    trimWhitespace_pad hh.value_trimmed (isWhitespace_blanks hh.padBefore_blank)
      (isWhitespace_blanks hh.padBehind_blank)]
  rfl

lemma HeaderLine.WellFormed.nfc_key {h : HeaderLine} (hh : h.WellFormed) :
    U.nfc h.key = h.key := U.nfc_ascii _ hh.name_line.ascii.toLower

/-- **The headers are those that were sent**, filed under their names in lower case. -/
lemma RequestMessage.WellFormed.get_headersOf (hm : m.WellFormed) {k v : List Char} :
    (headersOf U m.head).get U k = some v
      ↔ ∃ h ∈ m.headers, U.nfc k = h.key ∧ h.value = v := by
  rw [headersOf, hm.components_head, List.tail_cons, get_foldl_addHeaderLine]
  constructor
  · rintro ⟨before, line, behind, k', hlines, hfield, hk, -⟩
    have hmem : line ∈ m.headers.map HeaderLine.text := by
      rw [hlines]
      simp
    obtain ⟨h, hh, rfl⟩ := List.mem_map.mp hmem
    have hwf := hm.headers_wellFormed h hh
    rw [hwf.headerField?] at hfield
    obtain ⟨rfl, rfl⟩ := Prod.mk.inj (Option.some.inj hfield)
    exact ⟨h, hh, by rw [← hk, hwf.nfc_key], rfl⟩
  · rintro ⟨h, hh, hk, rfl⟩
    have hwf := hm.headers_wellFormed h hh
    obtain ⟨A, B, hAB⟩ := List.append_of_mem hh
    refine ⟨A.map HeaderLine.text, h.text, B.map HeaderLine.text, h.key, ?_, hwf.headerField?, ?_,
      ?_⟩
    · rw [hAB, List.map_append, List.map_cons]
    · rw [hwf.nfc_key, hk]
    · rintro l hl ⟨k', v', hfield, hk'⟩
      obtain ⟨h', hh', rfl⟩ := List.mem_map.mp hl
      have hwf' := hm.headers_wellFormed h' (by rw [hAB]; simp [hh'])
      rw [hwf'.headerField?] at hfield
      obtain ⟨rfl, -⟩ := Prod.mk.inj (Option.some.inj hfield)
      rw [hwf'.nfc_key, hk] at hk'
      -- another header of that name
      have hnodup := hm.names_distinct
      rw [hAB, List.map_append, List.map_cons, List.nodup_append] at hnodup
      refine (List.nodup_cons.mp hnodup.2.1).1 ?_
      rw [← hk']
      exact List.mem_map_of_mem hh'

lemma RequestMessage.WellFormed.declaredLength_headersOf (hm : m.WellFormed) :
    declaredLength U (headersOf U m.head) = m.body.length := by
  obtain ⟨h, hh, hkey, hint⟩ := hm.length_declared
  have hget : (headersOf U m.head).get U contentLengthKey = some h.value := by
    refine hm.get_headersOf.mpr ⟨h, hh, ?_, rfl⟩
    rw [← hkey, (hm.headers_wellFormed h hh).nfc_key]
  rw [declaredLength, hget, Option.getD_some, hint, Option.getD_some]

/-! ## The parser on a growing buffer -/

/-- The request that the parser reports. -/
def RequestMessage.parsed (U : UnicodeData) (m : RequestMessage) : HTTPRequest :=
  ⟨m.method, headersOf U m.head, m.body⟩

/-- **The parser on a complete head** and any bytes behind it. -/
lemma parseHTTP_serialize (hm : m.WellFormed) (behind : List UInt8) :
    parseHTTP U (asciiBytes m.head ++ headerEndMark ++ behind)
      = .ok (if behind.length < m.body.length then none
          else some ⟨m.method, headersOf U m.head, behind.take m.body.length⟩) := by
  have hend : ((asciiBytes m.head).length + headerEndMark.length : ℕ) + (m.body.length : Int)
      ≤ intMax := by
    have hfits := hm.fits
    simp only [RequestMessage.serialize, List.length_append] at hfits
    omega
  have hdrop : (asciiBytes m.head ++ headerEndMark ++ behind).drop
      ((asciiBytes m.head).length + headerEndMark.length) = behind := by
    rw [← List.length_append, List.drop_left]
  have hlength : (asciiBytes m.head ++ headerEndMark ++ behind).length
      = (asciiBytes m.head).length + headerEndMark.length + behind.length := by
    rw [List.length_append, List.length_append]
  rw [parseHTTP_of_head (hm.readsHead behind), hm.declaredLength_headersOf, takeBody_eq hend, hdrop,
    hlength]
  by_cases hshort : behind.length < m.body.length
  · rw [if_pos hshort, if_pos (by omega)]
    rfl
  · rw [if_neg hshort, if_neg (by omega)]
    rfl

/-- The whole request, and whatever follows it. -/
lemma parseHTTP_of_long (hm : m.WellFormed) (ext : List UInt8) :
    parseHTTP U (m.serialize ++ ext) = .ok (some (m.parsed U)) := by
  rw [RequestMessage.serialize, List.append_assoc, parseHTTP_serialize hm, if_neg (by simp),
    List.take_left]
  rfl

/-- **Too few bytes are no request.** -/
lemma parseHTTP_of_short (hm : m.WellFormed) {buffer ext : List UInt8}
    (h : buffer ++ ext = m.serialize) (hext : ext ≠ []) : parseHTTP U buffer = .ok none := by
  have hpos := List.length_pos_iff.mpr hext
  by_cases hhead : buffer.length < (asciiBytes m.head).length + headerEndMark.length
  · -- the empty line has not arrived yet
    obtain ⟨rest, hcut⟩ := (hm.readsHead (U := U) m.body).cut
    rw [← RequestMessage.serialize, ← h] at hcut
    have hnone := dropInfix?_eq_none_of_short hcut hhead
    refine parseHTTP_of_no_head fun head text method hreads => ?_
    obtain ⟨rest', hcut'⟩ := hreads.cut
    rw [hnone] at hcut'
    cases hcut'
  · have hfront : asciiBytes m.head ++ headerEndMark <+: buffer := by
      refine List.prefix_of_prefix_length_le ⟨m.body, h.symm⟩ (List.prefix_append buffer ext) ?_
      rw [List.length_append]
      omega
    obtain ⟨behind, rfl⟩ := hfront
    have hbody : behind ++ ext = m.body := by
      rw [RequestMessage.serialize, List.append_assoc _ behind] at h
      exact List.append_cancel_left h
    rw [parseHTTP_serialize hm, if_pos]
    rw [← hbody, List.length_append]
    omega

/-! ## The receive loop -/

/-- Once the request has gone to `process`, nothing more is received. -/
lemma foldl_pump_processing (buffer : List UInt8) (processed : List HTTPRequest)
    (receives : List Receive) :
    receives.foldl (pump U) ⟨buffer, .processing, processed⟩
      = ⟨buffer, .processing, processed⟩ := by
  induction receives with
  | nil => rfl
  | cons r receives ih => exact ih

/-- **The loop from any point before the end of the request.**  Induction on what is still to be
received; the buffer and the rest of the stream always make up the whole of it. -/
lemma foldl_pump_receiving (hm : m.WellFormed) {receives : List Receive}
    {buffer trailing : List UInt8}
    (hstream : buffer ++ receives.flatMap Receive.data = m.serialize ++ trailing)
    (hshort : buffer.length < m.serialize.length) (hok : ∀ r ∈ receives, r.error = false)
    (hopen : ∀ r ∈ receives.dropLast, r.isComplete = false) :
    (receives.foldl (pump U) ⟨buffer, .receiving, []⟩).phase = .processing
      ∧ (receives.foldl (pump U) ⟨buffer, .receiving, []⟩).processed = [m.parsed U] := by
  induction receives generalizing buffer with
  | nil =>
      have hlen := congrArg List.length hstream
      simp only [List.flatMap_nil, List.append_nil, List.length_append] at hlen
      omega
  | cons r receives ih =>
      rw [List.flatMap_cons, ← List.append_assoc] at hstream
      rw [List.foldl_cons]
      by_cases hmore : (buffer ++ r.data).length < m.serialize.length
      · obtain ⟨ext, hext⟩ := List.prefix_of_prefix_length_le
          ⟨_, hstream⟩ (List.prefix_append m.serialize trailing) hmore.le
        have hne : ext ≠ [] := by
          rintro rfl
          rw [List.append_nil] at hext
          rw [hext] at hmore
          omega
        have hrest : receives ≠ [] := by
          rintro rfl
          have hlen := congrArg List.length hstream
          simp only [List.flatMap_nil, List.append_nil, List.length_append] at hlen hmore
          omega
        have hpump : pump U ⟨buffer, .receiving, []⟩ r = ⟨buffer ++ r.data, .receiving, []⟩ := by
          have hcomplete : r.isComplete = false :=
            hopen r (by rw [List.dropLast_cons_of_ne_nil hrest]; exact List.mem_cons_self)
          simp [pump, parseHTTP_of_short (U := U) hm hext hne, hok r List.mem_cons_self, hcomplete]
        rw [hpump]
        refine ih hstream hmore (fun r' hr' => hok r' (List.mem_cons_of_mem r hr')) fun r' hr' => ?_
        refine hopen r' ?_
        rw [List.dropLast_cons_of_ne_nil hrest]
        exact List.mem_cons_of_mem r hr'
      · obtain ⟨ext, hext⟩ := List.prefix_of_prefix_length_le
          (List.prefix_append m.serialize trailing) ⟨_, hstream⟩ (not_lt.mp hmore)
        have hpump : pump U ⟨buffer, .receiving, []⟩ r
            = ⟨buffer ++ r.data, .processing, [m.parsed U]⟩ := by
          simp [pump, ← hext, parseHTTP_of_long hm]
        rw [hpump, foldl_pump_processing]
        exact ⟨rfl, rfl⟩

/-- The request that was sent: its method, its headers under their names in lower case, its
body. -/
structure IsRequest (U : UnicodeData) (m : RequestMessage) (req : HTTPRequest) : Prop where
  method : req.method = m.method
  headers : ∀ k v, req.headers.get U k = some v ↔ ∃ h ∈ m.headers, U.nfc k = h.key ∧ h.value = v
  body : req.body = m.body

/-- **A request is read exactly once, however it is cut into pieces**, and the parser neither
sees it early nor changes its mind later. -/
theorem accept_reads_request (U : UnicodeData) (m : RequestMessage) (hm : m.WellFormed)
    (trailing : List UInt8) (receives : List Receive)
    (hstream : receives.flatMap Receive.data = m.serialize ++ trailing)
    (hok : ∀ r ∈ receives, r.error = false)
    (hopen : ∀ r ∈ receives.dropLast, r.isComplete = false) :
    ∃ req, IsRequest U m req ∧ (accept U receives).processed = [req]
      ∧ (∀ buffer ext, buffer ++ ext = m.serialize → ext ≠ [] → parseHTTP U buffer = .ok none)
      ∧ ∀ ext, parseHTTP U (m.serialize ++ ext) = .ok (some req) := by
  have hlong : ([] : List UInt8).length < m.serialize.length := by
    simp only [RequestMessage.serialize, headerEndMark, List.length_append, List.length_cons,
      List.length_nil]
    omega
  refine ⟨m.parsed U, ⟨rfl, fun k v => hm.get_headersOf, rfl⟩, ?_,
    fun buffer ext h hext => parseHTTP_of_short hm h hext, parseHTTP_of_long hm⟩
  exact (foldl_pump_receiving hm hstream hlong hok hopen).2

/-- `POST / HTTP/1.1` with the body `{}`. -/
def emptyObjectRequest : RequestMessage where
  method := "POST".toList
  target := "/".toList
  version := "HTTP/1.1".toList
  headers := [⟨"Content-Length".toList, "2".toList, " ".toList, []⟩]
  body := [123, 125]

lemma emptyObjectRequest_wellFormed : emptyObjectRequest.WellFormed where
  method_line := ⟨by decide, by decide, by decide⟩
  method_word := by decide
  target_line := ⟨by decide, by decide, by decide⟩
  target_word := by decide
  version_line := ⟨by decide, by decide, by decide⟩
  headers_wellFormed h hh := by
    obtain rfl := List.mem_singleton.mp hh
    refine ⟨⟨by decide, by decide, by decide⟩, ⟨by decide, by decide, by decide⟩, by decide,
      by decide, by decide, fun c hc => ?_, fun c hc => ?_⟩
    · exact Or.inl (List.mem_singleton.mp hc)
    · cases hc
  names_distinct := by decide
  length_declared := ⟨_, List.mem_cons_self, by decide, by decide⟩
  fits := by decide

/-- A request in two pieces, the cut inside the empty line, with bytes behind it. -/
theorem accept_reads_emptyObjectRequest :
    ∃ req, IsRequest UnicodeData.ascii emptyObjectRequest req
      ∧ (accept UnicodeData.ascii [⟨emptyObjectRequest.serialize.take 36, false, false⟩,
          ⟨emptyObjectRequest.serialize.drop 36 ++ [0], true, false⟩]).processed = [req]
      ∧ (∀ buffer ext, buffer ++ ext = emptyObjectRequest.serialize → ext ≠ [] →
          parseHTTP UnicodeData.ascii buffer = .ok none)
      ∧ ∀ ext, parseHTTP UnicodeData.ascii (emptyObjectRequest.serialize ++ ext)
          = .ok (some req) :=
  accept_reads_request _ _ emptyObjectRequest_wellFormed [0] _ (by decide) (by decide) (by decide)

end WellFormed

end Luan
