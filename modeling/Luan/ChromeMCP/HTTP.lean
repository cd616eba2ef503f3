import Luan.Core.SwiftText

/-!
# The HTTP front of the Chrome endpoint

`parseHTTP` and the receive loop of `accept` in `LuanMac/NativeChromeMCP.swift`.  The parser
starts from scratch on everything received so far; `nil` means "not yet" as well as "never".

Lengths are `Int`s of the peer's choosing, so the operations with a precondition are kept as they
are in Swift: `parseHTTP` is an `Except Trap`, and a trap ends the process.

* `parseHTTP_of_head` — on a complete head the parser is `takeBody`.
* `get_foldl_addHeaderLine` — of several headers with one name the last counts.
* `takeBody_eq` — the body, for a length that does no harm.
-/

namespace Luan

/-- A dictionary with string keys. -/
abbrev Headers : Type := List Char → Option (List Char)

/-- `headers[k] = v`; keys are compared by canonical equivalence. -/
def Headers.set (U : UnicodeData) (headers : Headers) (k v : List Char) : Headers :=
  fun k' => if k' = U.nfc k then some v else headers k'

/-- `headers[k]` -/
def Headers.get (U : UnicodeData) (headers : Headers) (k : List Char) : Option (List Char) :=
  headers (U.nfc k)

/-- `HTTPRequest` -/
structure HTTPRequest where
  method : List Char
  headers : Headers
  body : List UInt8

/-- `"\r\n\r\n"` -/
def headerEndMark : List UInt8 := [13, 10, 13, 10]

/-- `"content-length"` -/
def contentLengthKey : List Char := "content-length".toList

/-- Name and value of a header line; a line without a colon has none. -/
def headerField? (U : UnicodeData) (line : List Char) : Option (List Char × List Char) :=
  (cutAtCharacter U ':' line).map fun cut =>
    (U.lowercased (trimWhitespace cut.1), trimWhitespace cut.2)

/-- One round of the loop over the header lines. -/
def addHeaderLine (U : UnicodeData) (headers : Headers) (line : List Char) : Headers :=
  match headerField? U line with
  | some (k, v) => headers.set U k v
  | none => headers

/-- `Int(headers["content-length"] ?? "") ?? 0` -/
def declaredLength (U : UnicodeData) (headers : Headers) : Int :=
  (swiftInt? ((headers.get U contentLengthKey).getD [])).getD 0

/-- The body behind `bodyStart`, if all of it has arrived: the end of `parseHTTP`. -/
def takeBody (data : List UInt8) (bodyStart bodyLen : Int) :
    Except Trap (Option (List UInt8)) := do
  let bodyEnd ← addInt bodyStart bodyLen
  if data.length < bodyEnd then return none
  let range ← HalfOpenRange.make bodyStart bodyEnd
  let body ← subdata data range
  return some body

/-- `parseHTTP` -/
def parseHTTP (U : UnicodeData) (data : List UInt8) : Except Trap (Option HTTPRequest) :=
  match data.dropInfix? headerEndMark with
  | none => .ok none
  | some (head, _) =>
      match decodeUTF8 head with
      | none => .ok none
      | some headerStr =>
          match componentsOnCRLF headerStr with
          | [] => .ok none
          | first :: lines =>
              match splitOnCharacter U ' ' first with
              | method :: _ :: _ => do
                  let headers := lines.foldl (addHeaderLine U) fun _ => none
                  let bodyLen := declaredLength U headers
                  let bodyStart := head.length + headerEndMark.length
                  let body? ← takeBody data bodyStart bodyLen
                  return body?.map fun body => ⟨method, headers, body⟩
              | _ => .ok none

/-! ## Receiving -/

/-- What one `receive` of a connection delivers; absent data are empty. -/
structure Receive where
  data : List UInt8
  isComplete : Bool
  error : Bool

/-- Where a connection stands. -/
inductive ConnPhase
  /-- a `receive` is pending -/
  | receiving
  /-- the request went to `process` -/
  | processing
  | cancelled
  | trapped
  deriving DecidableEq, Repr

/-- The variables of `accept`, and the calls of `process` it has made. -/
structure Connection where
  buffer : List UInt8
  phase : ConnPhase
  processed : List HTTPRequest

/-- The handler in `pump`.  Nothing arrives unless a `receive` is pending. -/
def pump (U : UnicodeData) (conn : Connection) (r : Receive) : Connection :=
  match conn.phase with
  | .receiving =>
      let buffer := conn.buffer ++ r.data
      match parseHTTP U buffer with
      | .error _ => ⟨buffer, .trapped, conn.processed⟩
      | .ok (some req) => ⟨buffer, .processing, conn.processed ++ [req]⟩
      | .ok none =>
          if r.error || r.isComplete then ⟨buffer, .cancelled, conn.processed⟩
          else ⟨buffer, .receiving, conn.processed⟩
  | _ => conn

/-- A connection that has just been accepted. -/
def Connection.fresh : Connection := ⟨[], .receiving, []⟩

/-- `accept`, for what the connection delivers one after the other. -/
def accept (U : UnicodeData) (receives : List Receive) : Connection :=
  receives.foldl (pump U) Connection.fresh

variable {U : UnicodeData}

/-! ## A complete head -/

/-- The first line has at least two words, the first of them `method`. -/
def HasRequestLine (U : UnicodeData) (text method : List Char) : Prop :=
  ∃ first lines target rest, componentsOnCRLF text = first :: lines
    ∧ splitOnCharacter U ' ' first = method :: target :: rest

/-- The headers of a text. -/
def headersOf (U : UnicodeData) (text : List Char) : Headers :=
  (componentsOnCRLF text).tail.foldl (addHeaderLine U) fun _ => none

/-- The head is in the buffer, and it can be read. -/
structure ReadsHead (U : UnicodeData) (data head : List UInt8) (text method : List Char) :
    Prop where
  cut : ∃ rest, data.dropInfix? headerEndMark = some (head, rest)
  decoded : decodeUTF8 head = some text
  requestLine : HasRequestLine U text method

/-- **The parser on a complete head.** -/
lemma parseHTTP_of_head {data head : List UInt8} {text method : List Char}
    (h : ReadsHead U data head text method) :
    parseHTTP U data
      = (takeBody data (head.length + headerEndMark.length : ℕ)
            (declaredLength U (headersOf U text))).map
          (Option.map fun body => ⟨method, headersOf U text, body⟩) := by
  obtain ⟨⟨rest, hcut⟩, hdec, first, lines, target, rest', hlines, hwords⟩ := h
  have hheaders : headersOf U text = lines.foldl (addHeaderLine U) fun _ => none := by
    rw [headersOf, hlines, List.tail_cons]
  simp only [parseHTTP, hcut, hdec, hlines, hwords, hheaders]
  rfl

/-- Without a complete head there is no request, and no trap. -/
lemma parseHTTP_of_no_head {data : List UInt8}
    (h : ∀ head text method, ¬ ReadsHead U data head text method) :
    parseHTTP U data = .ok none := by
  simp only [parseHTTP]
  split
  · rfl
  · rename_i head rest hcut
    split
    · rfl
    · rename_i text hdec
      split
      · rfl
      · rename_i first lines hlines
        split
        · rename_i method target rest' hwords
          exact absurd ⟨⟨rest, hcut⟩, hdec, first, lines, target, rest', hlines, hwords⟩
            (h head text method)
        · rfl

/-- There is only one way to read the head. -/
lemma ReadsHead.unique {data head head' : List UInt8} {text text' method method' : List Char}
    (h : ReadsHead U data head text method) (h' : ReadsHead U data head' text' method') :
    head = head' ∧ text = text' := by
  obtain ⟨⟨rest, hcut⟩, hdec, -⟩ := h
  obtain ⟨⟨rest', hcut'⟩, hdec', -⟩ := h'
  rw [hcut] at hcut'
  obtain ⟨rfl, -⟩ := Prod.mk.inj (Option.some.inj hcut')
  rw [hdec] at hdec'
  exact ⟨rfl, Option.some.inj hdec'⟩

lemma ReadsHead.length_le {data head : List UInt8} {text method : List Char}
    (h : ReadsHead U data head text method) :
    head.length + headerEndMark.length ≤ data.length := by
  obtain ⟨rest, hcut⟩ := h.cut
  obtain ⟨rfl, -⟩ := dropInfix?_eq_some.mp hcut
  simp only [List.length_append]
  omega

/-! ## Headers -/

/-- The line has a header of that name. -/
def NamesHeader (U : UnicodeData) (k line : List Char) : Prop :=
  ∃ k' v, headerField? U line = some (k', v) ∧ U.nfc k' = U.nfc k

/-- The last line with a header of that name gives it this value. -/
def LastHeader (U : UnicodeData) (lines : List (List Char)) (k v : List Char) : Prop :=
  ∃ before line behind k', lines = before ++ line :: behind
    ∧ headerField? U line = some (k', v) ∧ U.nfc k' = U.nfc k
    ∧ ∀ l ∈ behind, ¬ NamesHeader U k l

lemma get_addHeaderLine_of_names {headers : Headers} {line k k' v : List Char}
    (hline : headerField? U line = some (k', v)) (hk : U.nfc k' = U.nfc k) :
    (addHeaderLine U headers line).get U k = some v := by
  simp [addHeaderLine, hline, Headers.get, Headers.set, hk]

lemma get_addHeaderLine_of_not_names {headers : Headers} {line k : List Char}
    (hline : ¬ NamesHeader U k line) :
    (addHeaderLine U headers line).get U k = headers.get U k := by
  simp only [addHeaderLine]
  split
  · rename_i k' v hfield
    have hne : U.nfc k ≠ U.nfc k' := fun heq => hline ⟨k', v, hfield, heq.symm⟩
    simp [Headers.get, Headers.set, hne]
  · rfl

/-- **Of several headers with one name the last counts.**  Induction on the lines from the
end. -/
lemma get_foldl_addHeaderLine {lines : List (List Char)} {k v : List Char} :
    (lines.foldl (addHeaderLine U) fun _ => none).get U k = some v
      ↔ LastHeader U lines k v := by
  induction lines using List.reverseRecOn with
  | nil =>
      constructor
      · intro h
        cases h
      · rintro ⟨before, line, behind, k', hlines, -⟩
        simp at hlines
  | append_singleton lines line ih =>
      rw [List.foldl_append, List.foldl_cons, List.foldl_nil]
      by_cases hnames : NamesHeader U k line
      · obtain ⟨k', v', hfield, hk⟩ := hnames
        rw [get_addHeaderLine_of_names hfield hk]
        constructor
        · intro hv
          obtain rfl := Option.some.inj hv
          exact ⟨lines, line, [], k', rfl, hfield, hk, by simp⟩
        · rintro ⟨before, line', behind, k'', hlines, hfield', hk', hno⟩
          rcases List.eq_nil_or_concat behind with rfl | ⟨front, last, rfl⟩
          · obtain ⟨-, hline⟩ := List.append_inj' hlines rfl
            obtain rfl := (List.cons.inj hline).1
            rw [hfield] at hfield'
            exact congrArg some (Prod.mk.inj (Option.some.inj hfield')).2
          · rw [List.concat_eq_append, ← List.cons_append, ← List.append_assoc] at hlines
            obtain ⟨-, hline⟩ := List.append_inj' hlines rfl
            obtain rfl := (List.cons.inj hline).1
            exact absurd ⟨k', v', hfield, hk⟩ (hno line (by simp))
      · rw [get_addHeaderLine_of_not_names hnames, ih]
        constructor
        · rintro ⟨before, line', behind, k', rfl, hfield, hk, hno⟩
          refine ⟨before, line', behind ++ [line], k', by simp, hfield, hk, ?_⟩
          intro l hl
          rcases List.mem_append.mp hl with hl | hl
          · exact hno l hl
          · rwa [List.mem_singleton.mp hl]
        · rintro ⟨before, line', behind, k', hlines, hfield, hk, hno⟩
          rcases List.eq_nil_or_concat behind with rfl | ⟨front, last, rfl⟩
          · obtain ⟨-, hline⟩ := List.append_inj' hlines rfl
            obtain rfl := (List.cons.inj hline).1
            exact absurd ⟨k', v, hfield, hk⟩ hnames
          · rw [List.concat_eq_append, ← List.cons_append, ← List.append_assoc] at hlines
            obtain ⟨rfl, -⟩ := List.append_inj' hlines rfl
            exact ⟨before, line', front, k', rfl, hfield, hk, fun l hl => hno l (by simp [hl])⟩

/-! ## The body -/

/-- A length from zero on whose end is an `Int` is harmless. -/
lemma takeBody_eq {data : List UInt8} {bodyStart n : ℕ} (hend : (bodyStart + n : Int) ≤ intMax) :
    takeBody data bodyStart n
      = .ok (if data.length < bodyStart + n then none
        else some ((data.drop bodyStart).take n)) := by
  have hsum : addInt bodyStart n = .ok (bodyStart + n : Int) :=
    if_pos ⟨by unfold intMin; omega, hend⟩
  have hrange : HalfOpenRange.make bodyStart (bodyStart + n)
      = .ok ⟨bodyStart, bodyStart + n, by omega⟩ := dif_pos (by omega)
  simp only [takeBody]
  rw [hsum]
  dsimp only [bind, Except.bind]
  split_ifs with hshort hshort' hshort'
  · rfl
  · omega
  · omega
  · rw [hrange]
    dsimp only [subdata]
    rw [if_pos ⟨by omega, by omega⟩]
    have hlen : ((bodyStart : Int) + n - bodyStart).toNat = n := by omega
    simp only [pure, Except.pure, Int.toNat_natCast, hlen]

end Luan
