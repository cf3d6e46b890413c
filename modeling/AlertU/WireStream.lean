import AlertU.Framing
import AlertU.Wire

/-! The two directions of the control socket as streams of bytes: what one side writes, one message to a
line, and what the other side reads of it, in whatever chunks it comes and wherever it breaks off. The texts
of JSON values are those of `serde_json`, a parameter. -/

open FilePath Framing Records Text

namespace AlertU

/-- `serde_json` on texts, and what it says of a value that is not of the type wanted. -/
structure SerdeJson where
  toString : Json → List Char
  fromStr : List Char → Except String Json
  mismatch : Json → String

variable (json : SerdeJson)

/-- What the crate promises for a value that is an object: its text is one line in braces, the value is read
back from it, and a part of the text is not a value. -/
structure SerdeJson.Writes (j : Json) : Prop where
  fromStr : json.fromStr (json.toString j) = .ok j
  braces : ∃ inner, json.toString j = '{' :: inner ++ ['}']
  line : '\n' ∉ json.toString j
  whole : ∀ text, text <+: json.toString j → text ≠ json.toString j → ∃ e, json.fromStr text = .error e

/-- A message as it is written, without its line feed. -/
def SerdeJson.bytes (j : Json) : List UInt8 := utf8 (json.toString j)

/-! ### The two readers -/

/-- A line without the carriage return that may end it. -/
def chomp (text : List Char) : List Char := if text.getLast? = some '\r' then text.dropLast else text

/-- The lines that `next_line` gives, as they are parsed. What is not UTF-8 ends the connection; at the end
of the stream there is a last line, unless it is empty. -/
def nextLines {μ : Type} (parse : List Char → μ) : List (List UInt8) → List UInt8 → Bool → List μ
  | [], cut, eof => if eof && !cut.isEmpty then ((ofUtf8 cut).map parse).toList else []
  | piece :: pieces, cut, eof =>
      match ofUtf8 piece with
      | none => []
      | some text => parse (chomp text) :: nextLines parse pieces cut eof

/-- What the daemon makes of a line. -/
def Line.parse (text : List Char) : Line :=
  if trim text = [] then .blank
  else
    match json.fromStr text with
    | .error e => .malformed e
    | .ok j =>
        match Request.ofJson j with
        | some req => .request req
        | none => .malformed (json.mismatch j)

/-- The lines that the daemon takes from a connection. -/
def Line.ofStream (chunks : List (List UInt8)) (eof : Bool) : List Line :=
  nextLines (Line.parse json) (Reader.ofChunks LF chunks).pieces (Reader.ofChunks LF chunks).rest eof

namespace Client

/-- What the client makes of a line that it has read. -/
def parseReply (text : List Char) : Except String Response :=
  match json.fromStr (trimEnd text) with
  | .error e => .error e
  | .ok j =>
      match Response.ofJson j with
      | some response => .ok response
      | none => .error (json.mismatch j)

/-- What `read_line` gives the client: the bytes up to a line feed, or to the end of the stream. -/
def readLine (bytes : List UInt8) : Answer .readLine :=
  if bytes = [] then .ok none
  else
    match ofUtf8 bytes with
    | none => .error "stream did not contain valid UTF-8"
    | some text => .ok (some (parseReply json text))

end Client

/-! ### Lines of one message -/

variable {json} {j : Json} {text : List Char}

theorem SerdeJson.ofUtf8_bytes : ofUtf8 (json.bytes j) = some (json.toString j) := ofUtf8_utf8 _

theorem SerdeJson.Writes.lf_notMem (h : json.Writes j) : LF ∉ json.bytes j := lf_notMem_utf8 h.line

theorem SerdeJson.Writes.chomp (h : json.Writes j) : chomp (json.toString j) = json.toString j := by
  obtain ⟨inner, hinner⟩ := h.braces
  rw [AlertU.chomp, hinner, List.getLast?_append]
  exact if_neg (by simp)

theorem trim_ne_nil (hbrace : '{' ∈ text) : trim text ≠ [] := by
  intro hnil
  obtain ⟨before, after, htext, hbefore, hafter⟩ := trim_decompose text
  rw [htext, hnil, List.append_nil] at hbrace
  have hspace : isWhitespace '{' := (List.mem_append.mp hbrace).elim (hbefore _) (hafter _)
  exact absurd hspace (by decide)

/-- A part of a message starts with its brace. -/
theorem SerdeJson.Writes.brace_mem (h : json.Writes j) (hbegins : text <+: json.toString j)
    (hne : text ≠ []) : '{' ∈ text := by
  obtain ⟨inner, hinner⟩ := h.braces
  rw [hinner] at hbegins
  cases text with
  | nil => exact absurd rfl hne
  | cons c text =>
      rw [List.cons_append] at hbegins
      rw [(List.cons_prefix_cons.mp hbegins).1]
      exact List.mem_cons_self

theorem SerdeJson.Writes.trimEnd_self (h : json.Writes j) :
    trimEnd (json.toString j) = json.toString j := by
  obtain ⟨inner, hinner⟩ := h.braces
  rw [Text.trimEnd, hinner]
  exact List.rdropWhile_concat_neg _ _ _ (by decide)

theorem SerdeJson.Writes.trimEnd (h : json.Writes j) :
    trimEnd (json.toString j ++ ['\n']) = json.toString j := by
  rw [Text.trimEnd, List.rdropWhile_concat_pos _ _ _ (by decide)]
  exact h.trimEnd_self

/-- A request is read from its line. -/
theorem parse_request {req : Request} (h : json.Writes req.toJson) :
    Line.parse json (json.toString req.toJson) = .request req := by
  have hne : json.toString req.toJson ≠ [] := by
    obtain ⟨inner, hinner⟩ := h.braces
    rw [hinner]
    exact List.cons_ne_nil _ _
  rw [Line.parse, if_neg (trim_ne_nil (h.brace_mem List.prefix_rfl hne)), h.fromStr]
  simp only [Request.ofJson_toJson]

/-- A part of a request is no request. -/
theorem parse_cut {req : Request} (h : json.Writes req.toJson) (hne : text ≠ [])
    (hbegins : text <+: json.toString req.toJson) (hcut : text ≠ json.toString req.toJson) :
    ∃ e, Line.parse json text = .malformed e := by
  obtain ⟨e, he⟩ := h.whole text hbegins hcut
  refine ⟨e, ?_⟩
  rw [Line.parse, if_neg (trim_ne_nil (h.brace_mem hbegins hne)), he]

/-! ### The daemon's side -/

theorem nextLines_cons {μ : Type} {parse : List Char → μ} {piece : List UInt8} (pieces : List (List UInt8))
    (cut : List UInt8) (eof : Bool) (h : ofUtf8 piece = some text) :
    nextLines parse (piece :: pieces) cut eof = parse (chomp text) :: nextLines parse pieces cut eof := by
  rw [nextLines, h]

theorem nextLines_messages {α μ : Type} {parse : List Char → μ} {toJson : α → Json} {good : α → μ}
    {messages : List α} (hmessages : ∀ m ∈ messages, json.Writes (toJson m) ∧
      parse (json.toString (toJson m)) = good m) (cut : List UInt8) (eof : Bool) :
    nextLines parse (messages.map fun m => json.bytes (toJson m)) cut eof =
      messages.map good ++ nextLines parse [] cut eof := by
  induction messages with
  | nil => rfl
  | cons m messages ih =>
      obtain ⟨⟨hwrites, hparse⟩, hrest⟩ := List.forall_mem_cons.mp hmessages
      rw [List.map_cons, nextLines_cons _ _ _ SerdeJson.ofUtf8_bytes, hwrites.chomp, hparse, ih hrest,
        List.map_cons, List.cons_append]

/-- Whatever the daemon has received of the requests, in whatever chunks: it takes exactly those that have
arrived whole, in their order. What is left holds no line feed. If the stream ends there, that is malformed
or ends the connection, unless only its line feed is missing. -/
theorem daemon_takes_whole_requests {reqs : List Request} (hwrites : ∀ req ∈ reqs, json.Writes req.toJson)
    {chunks : List (List UInt8)}
    (hstream : chunks.flatten <+: frame LF (reqs.map fun req => json.bytes req.toJson)) (eof : Bool) :
    ∃ k cut last, chunks.flatten = frame LF ((reqs.take k).map fun req => json.bytes req.toJson) ++ cut ∧
      LF ∉ cut ∧ Received (reqs.map fun req => json.bytes req.toJson) k cut ∧
      Line.ofStream json chunks eof = (reqs.take k).map .request ++ last ∧
      (last = [] ∧ (eof = false ∨ cut = [] ∨ ofUtf8 cut = none) ∨
        eof ∧ cut ≠ [] ∧ (∃ e, last = [.malformed e]) ∨
        eof ∧ ∃ req, reqs[k]? = some req ∧ cut = json.bytes req.toJson ∧ last = [.request req]) := by
  have hlf : ∀ m ∈ reqs.map fun req => json.bytes req.toJson, LF ∉ m := by
    intro m hm
    obtain ⟨req, hreq, rfl⟩ := List.mem_map.mp hm
    exact (hwrites req hreq).lf_notMem
  obtain ⟨k, cut, hsplit, hcut, hnone, hread⟩ := ofChunks_of_begins hlf hstream
  rw [← List.map_take] at hsplit hread
  refine ⟨k, cut, nextLines (Line.parse json) [] cut eof, hsplit, hnone, hcut, ?_, ?_⟩
  · rw [Line.ofStream, hread]
    exact nextLines_messages (fun req hreq =>
      have h := hwrites req (List.mem_of_mem_take hreq)
      ⟨h, parse_request h⟩) cut eof
  · unfold nextLines
    split
    · rename_i heof
      simp only [Bool.and_eq_true, Bool.not_eq_true', List.isEmpty_eq_false_iff] at heof
      obtain ⟨m, hm, hbegins⟩ := hcut.resolve_left heof.2
      rw [List.getElem?_map] at hm
      obtain ⟨req, hreq, rfl⟩ := Option.map_eq_some_iff.mp hm
      have h := hwrites req (List.mem_of_getElem? hreq)
      cases htext : ofUtf8 cut with
      | none => exact .inl ⟨rfl, .inr (.inr rfl)⟩
      | some text =>
          have hbytes : cut = utf8 text := utf8_of_ofUtf8 htext
          have hne : text ≠ [] := by
            rintro rfl
            exact heof.2 hbytes
          rw [hbytes] at hbegins
          by_cases hwhole : text = json.toString req.toJson
          · refine .inr (.inr ⟨heof.1, req, hreq, hbytes.trans (congrArg utf8 hwhole), ?_⟩)
            rw [hwhole, Option.map_some, parse_request h]
            rfl
          · obtain ⟨e, he⟩ := parse_cut h hne (begins_of_utf8 hbegins) hwhole
            refine .inr (.inl ⟨heof.1, heof.2, e, ?_⟩)
            rw [Option.map_some, he]
            rfl
    · rename_i hgoes
      simp only [Bool.and_eq_true, Bool.not_eq_true', List.isEmpty_eq_false_iff, not_and, not_not] at hgoes
      cases eof with
      | false => exact .inl ⟨rfl, .inl rfl⟩
      | true => exact .inl ⟨rfl, .inr (.inl (hgoes rfl))⟩

/-- `serde_json` as it is on one object. -/
def oneJson (j : Json) (inner : String) : SerdeJson where
  toString _ := '\x7b' :: inner.toList ++ ['\x7d']
  fromStr text :=
    if text = '\x7b' :: inner.toList ++ ['\x7d'] then .ok j
    else .error "EOF while parsing an object at line 1 column 9"
  mismatch _ := "invalid type"

theorem oneJson_writes {inner : String} (hline : '\n' ∉ inner.toList) : (oneJson j inner).Writes j where
  fromStr := by simp [oneJson]
  braces := ⟨_, rfl⟩
  line := by simpa [oneJson] using hline
  whole _ _ hne := ⟨_, if_neg hne⟩

def armJson : SerdeJson := oneJson Request.arm.toJson "\"cmd\":\"arm\""

theorem daemon_takes_whole_requests_arm : ∃ chunks : List (List UInt8), chunks.length = 3 ∧
    ∃ k cut last, chunks.flatten =
        frame LF (([Request.arm, .arm].take k).map fun req => armJson.bytes req.toJson) ++ cut ∧
      LF ∉ cut ∧ Received ([Request.arm, .arm].map fun req => armJson.bytes req.toJson) k cut ∧
      Line.ofStream armJson chunks true = ([Request.arm, .arm].take k).map .request ++ last ∧
      (last = [] ∧ (true = false ∨ cut = [] ∨ ofUtf8 cut = none) ∨
        true ∧ cut ≠ [] ∧ (∃ e, last = [.malformed e]) ∨
        true ∧ ∃ req, [Request.arm, .arm][k]? = some req ∧ cut = armJson.bytes req.toJson ∧
          last = [.request req]) := by
  let stream := frame LF ([Request.arm, .arm].map fun req => armJson.bytes req.toJson)
  refine ⟨[stream.take 4, (stream.drop 4).take 12, (stream.drop 16).take 7], rfl,
    daemon_takes_whole_requests (fun req hreq => ?_) (by decide) true⟩
  have harm : req = .arm := by simpa using hreq
  rw [harm]
  exact oneJson_writes (by decide)

/-! ### The client's side -/

end AlertU
