import SlmMcpHub.Library.JsonText
import SlmMcpHub.Server.StdioServer

/-!
# The bytes of the stdio transport

What `_write_message` writes is one line for each message. Whoever reads the output line by line,
the way the transport reads its own input, gets the messages back.

## Main definitions

* `Stdio.wire` — the bytes of a message
* `Stdio.readLines` — the lines of an input

## Main results

* `received_wire` — what has been written is received
* `serveRound_wire` — what a client has written reaches the endpoint
-/

namespace SlmMcpHub

namespace Stdio

open Protocol MCPEndpoint

/-! ### Bytes -/

/-- `text.encode("utf-8")` -/
def encode (s : String) : List UInt8 := s.toList.flatMap String.utf8EncodeChar

/-- What `_write_message` writes; `floatRepr` is `float.__repr__`. -/
def wire (floatRepr : Double → List Char) (payload : Dict String Json) : List UInt8 :=
  encode (JsonText.dumps .compact floatRepr (ofDict payload) ++ "\n")

/-- The lines of an input, with their newlines. `line` has been read of the next one, last byte
first; at the end of the input there may be one without a newline. -/
def readLinesFrom (line : List UInt8) : List UInt8 → List (List UInt8)
  | [] => if line = [] then [] else [line.reverse]
  | b :: bs =>
    if b = 10 then (b :: line).reverse :: readLinesFrom [] bs else readLinesFrom (b :: line) bs

def readLines (bytes : List UInt8) : List (List UInt8) := readLinesFrom [] bytes

/-- What is read off a line: `json.loads(line.decode("utf-8").strip())`. -/
def messageOf? (decode : List UInt8 → String) (line : List UInt8) : Option Json :=
  JsonText.loads (Text.strip (decode line))

/-! ### Reading lines -/

theorem readLinesFrom_append (bs : List UInt8) : ∀ {l : List UInt8} (acc : List UInt8), 10 ∉ l →
    readLinesFrom acc (l ++ 10 :: bs) = (acc.reverse ++ l ++ [10]) :: readLinesFrom [] bs := by
  intro l
  induction l with
  | nil =>
    intro acc _
    rw [List.nil_append, readLinesFrom, if_pos rfl]
    simp
  | cons b l ih =>
    intro acc h
    obtain ⟨hb, hl⟩ := not_or.mp (mt List.mem_cons.mpr h)
    rw [List.cons_append, readLinesFrom, if_neg (Ne.symm hb), ih (b :: acc) hl]
    simp

/-- A printable character is one byte, and this is no newline. -/
theorem utf8EncodeChar_of_printable {c : Char} (h : JsonText.Printable c) :
    ∃ b, b ≠ 10 ∧ String.utf8EncodeChar c = [b] := by
  have hsize : c.utf8Size = 1 := by
    rw [Char.utf8Size_eq_one_iff]
    have h' : c.val.toNat ≤ 0x7e := h.2
    exact UInt32.le_iff_toNat_le.mpr (Nat.le_trans h' (by decide))
  refine ⟨c.val.toUInt8, fun heq => ?_, String.utf8EncodeChar_eq_singleton hsize⟩
  have hnat : c.val.toNat % 256 = 10 := by
    have htoNat := congrArg UInt8.toNat heq
    rwa [UInt32.toNat_toUInt8] at htoNat
  have h1 : 0x20 ≤ c.val.toNat := h.1
  have h2 : c.val.toNat ≤ 0x7e := h.2
  omega

/-- A text of printable characters has no newline in it. -/
theorem newline_not_mem_encode {s : String} (h : ∀ c ∈ s.toList, JsonText.Printable c) :
    10 ∉ encode s := by
  intro hmem
  obtain ⟨c, hc, hb⟩ := List.mem_flatMap.mp hmem
  obtain ⟨b, hne, heq⟩ := utf8EncodeChar_of_printable (h c hc)
  rw [heq, List.mem_singleton] at hb
  exact hne hb.symm

theorem encode_append (s t : String) : encode (s ++ t) = encode s ++ encode t := by
  rw [encode, String.toList_append, List.flatMap_append]
  rfl

/-! ### Reading a message -/

section Received

variable {floatRepr : Double → List Char}

variable (floatRepr) in
/-- The text of an object starts and ends with a brace. -/
theorem dumps_ofDict (payload : Dict String Json) :
    ∃ body, (JsonText.dumps .compact floatRepr (ofDict payload)).toList =
      '{' :: (body ++ ['}']) := by
  rw [JsonText.dumps, String.toList_ofList, ofDict]
  cases payload.entries with
  | nil => exact ⟨[], rfl⟩
  | cons p l =>
    obtain ⟨k, v⟩ := p
    rw [JsonText.dumpsAt]
    refine ⟨JsonText.dumpsStr k ++ (':' :: (JsonText.dumpsAt .compact floatRepr 1 v ++
      JsonText.dumpsEntries .compact floatRepr 1 l)), ?_⟩
    simp [JsonText.Layout.compact]

/-- Taking the newline off leaves the text of the object. -/
theorem strip_line (payload : Dict String Json) :
    Text.strip (JsonText.dumps .compact floatRepr (ofDict payload) ++ "\n") =
      JsonText.dumps .compact floatRepr (ofDict payload) := by
  obtain ⟨body, hbody⟩ := dumps_ofDict floatRepr payload
  have hline : "\n".toList = ['\n'] := rfl
  rw [Text.strip, ← String.toList_inj, String.toList_ofList, String.toList_append, hbody, hline,
    List.cons_append, List.dropWhile_cons_of_neg (by decide), ← List.cons_append,
    List.rdropWhile_concat_pos _ _ _ (by decide), ← List.cons_append,
    List.rdropWhile_concat_neg _ _ _ (by decide)]

variable {decode : List UInt8 → String}

/-- A message is read off its line. -/
theorem messageOf?_line (hdecode : ∀ s, decode (encode s) = s) {payload : Dict String Json}
    (h : JsonText.Writable floatRepr (ofDict payload)) :
    messageOf? decode (wire floatRepr payload) = some (ofDict payload) := by
  rw [messageOf?, wire, hdecode, strip_line, JsonText.loads_dumps h]

/-- A message is written as one line. -/
theorem wire_eq {payload : Dict String Json} (h : JsonText.Writable floatRepr (ofDict payload)) :
    ∃ l, 10 ∉ l ∧ wire floatRepr payload = l ++ [10] := by
  refine ⟨encode (JsonText.dumps .compact floatRepr (ofDict payload)), ?_, encode_append _ _⟩
  exact newline_not_mem_encode (JsonText.printable_dumps JsonText.Layout.inline_compact h)

/-- **What has been written is received.** Of messages that are written one after the other, with
any strings in them, one line is read for each, and on it the message. -/
theorem received_wire (hdecode : ∀ s, decode (encode s) = s) {payloads : List (Dict String Json)}
    (h : ∀ payload ∈ payloads, JsonText.Writable floatRepr (ofDict payload)) :
    (readLines (payloads.flatMap (wire floatRepr))).map (messageOf? decode) =
      payloads.map fun payload => some (ofDict payload) := by
  rw [readLines]
  induction payloads with
  | nil => rfl
  | cons payload payloads ih =>
    have hpayload := h payload List.mem_cons_self
    obtain ⟨l, hl, hwire⟩ := wire_eq hpayload
    have hmessage := messageOf?_line hdecode hpayload
    rw [List.flatMap_cons, hwire, List.append_assoc, List.singleton_append,
      readLinesFrom_append _ [] hl, List.map_cons, List.map_cons,
      ih fun p hp => h p (List.mem_cons_of_mem payload hp)]
    rw [hwire] at hmessage
    exact congrArg (· :: _) hmessage

/-- **What a client has written reaches the endpoint**, as long as its line is not too long. -/
theorem serveRound_wire {L : Lib} (hdecode : ∀ s, L.decode (encode s) = s)
    {payload : Dict String Json} (h : JsonText.Writable floatRepr (ofDict payload))
    (hloads : ∀ v, JsonText.loads (JsonText.dumps .compact floatRepr (ofDict payload)) = some v →
      L.loads (JsonText.dumps .compact floatRepr (ofDict payload)) = .value v)
    {round : Round} (hread : round.read = .line (wire floatRepr payload))
    (hlimit : (content (wire floatRepr payload)).length ≤ streamLimit) :
    serveRound L round = handleOne L round payload := by
  obtain ⟨l, -, hwire⟩ := wire_eq h
  have hne : wire floatRepr payload ≠ [] := by simp [hwire]
  have htext : L.text (wire floatRepr payload) =
      JsonText.dumps .compact floatRepr (ofDict payload) := by
    rw [Lib.text, wire, hdecode, strip_line]
  have htext_ne : JsonText.dumps .compact floatRepr (ofDict payload) ≠ "" := by
    obtain ⟨body, hbody⟩ := dumps_ofDict floatRepr payload
    intro heq
    rw [heq] at hbody
    cases hbody
  have hline : readLine (.line (wire floatRepr payload)) = .ok (wire floatRepr payload) :=
    if_neg (Nat.not_lt.mpr hlimit)
  rw [serveRound, hread, hline]
  simp only []
  rw [if_neg hne, htext, if_neg htext_ne, hloads _ (JsonText.loads_dumps h)]
  exact congrArg (handleOne L round) (Dict.setAll_empty_entries payload)

end Received

/-! ### Two messages -/

/-- `bytes.decode("utf-8")`, where this does not fail. -/
def decodeUtf8 (bytes : List UInt8) : String := (String.fromUTF8? bytes.toByteArray).getD ""

theorem decodeUtf8_encode (s : String) : decodeUtf8 (encode s) = s := by
  have hbytes : (encode s).toByteArray = s.toByteArray := String.utf8Encode_toList
  rw [decodeUtf8, hbytes, String.fromUTF8?, dif_pos s.isValidUTF8]
  rfl

/-- An answer with line breaks in it. -/
def brokenLines : Dict String Json :=
  Json.toDict [("jsonrpc", .str "2.0"), ("id", .int 1), ("result", .arr [.str "a\nb\r", .null])]

theorem writable_brokenLines (floatRepr : Double → List Char) :
    JsonText.Writable floatRepr (ofDict brokenLines) := by
  have hone : (Nat.toDigits 10 1).length ≤ JsonText.maxStrDigits := by decide
  exact ⟨by decide, trivial, hone, ⟨trivial, trivial, trivial⟩, trivial⟩

theorem received_wire_brokenLines :
    (readLines ([brokenLines, brokenLines].flatMap (wire fun _ => []))).map
      (messageOf? decodeUtf8) =
      [some (ofDict brokenLines), some (ofDict brokenLines)] := by
  refine received_wire decodeUtf8_encode fun payload hpayload => ?_
  simp only [List.mem_cons, List.not_mem_nil, or_false, or_self] at hpayload
  exact hpayload ▸ writable_brokenLines _

end Stdio

end SlmMcpHub
