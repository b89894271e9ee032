/-
Session events on the wire, written and read
(`packages/events/src/index.ts`, `formatSse`; `packages/sdk/src/sse.ts`, `parseSseStream`).

The server writes an event as a block of lines, encodes it as UTF-8 and sends comment lines in
between. The client reads the body in chunks that end anywhere: it decodes what it has, takes the
complete lines from its buffer and gives out a message at every blank line.

A text is a list of Unicode characters. The source's strings are UTF-16, but no half of a pair can
come out of the decoder or equal one of the characters the parser looks for.
-/
import OpenGeni.Lib.Utf8
import OpenGeni.Stream.SessionEvent

namespace OpenGeni.Stream

open OpenGeni.Lib OpenGeni.Lib.Json

abbrev Text := List Char

/-! ## Events -/

abbrev WireEvent := SessionEvent NumberText JsString

/-- A member that may be missing or `null`. -/
def optionalMember (name : String) : Option (Option JsString) → List (JsString × Json NumberText JsString)
  | none => []
  | some none => [(.ascii name, .null)]
  | some (some value) => [(.ascii name, .string value)]

def decimal (n : ℕ) : Text := Nat.toDigits 10 n

def WireEvent.toJson (event : WireEvent) : Json NumberText JsString := .object <|
    [(.ascii "id", .string event.id), (.ascii "workspaceId", .string event.workspaceId),
     (.ascii "sessionId", .string event.sessionId),
     (.ascii "sequence", .number ⟨decimal event.sequence, Json.all_toDigits _⟩),
     (.ascii "type", .string (.ascii event.type.name)), (.ascii "payload", event.payload),
     (.ascii "occurredAt", .string event.occurredAt)] ++
    optionalMember "clientEventId" event.clientEventId ++ optionalMember "turnId" event.turnId

def formatSse (event : WireEvent) : Text := ['\n'].intercalate ["id: ".toList ++ decimal event.sequence,
     "event: ".toList ++ event.type.name.toList,
     "data: ".toList ++ stringify (WireEvent.toJson event),
     [],
     []]

/-! ## The parser -/

structure SseMessage where
  id : Option Text := none
  event : Option Text := none
  data : Text
  deriving DecidableEq

structure Block where
  id : Option Text := none
  event : Option Text := none
  dataLines : Option (List Text) := none

def dispatch (block : Block) : Block × Option SseMessage := ({}, block.dataLines.map fun lines =>
    { id := block.id, event := block.event, data := ['\n'].intercalate lines })

def handleLine (block : Block) (line : Text) : Block × Option SseMessage := if line = [] then
    dispatch block
  else if line.head? = some ':' then
    (block, none)
  else
    let colon := line.idxOf? ':'
    let field := match colon with
      | none => line
      | some colon => line.take colon
    let value := match colon with
      | none => []
      | some colon => line.drop (colon + 1)
    let value := if value.head? = some ' ' then value.drop 1 else value
    if field = "data".toList then
      ({ block with dataLines := some (block.dataLines.getD [] ++ [value]) }, none)
    else if field = "event".toList then
      ({ block with event := some value }, none)
    else if field = "id".toList then
      ({ block with id := some value }, none)
    else
      -- other fields, such as `retry`
      (block, none)

def stripReturn (line : Text) : Text := if line.getLast? = some '\r' then line.dropLast else line

/-- What is kept between two lines: the text behind the last line, and the block. -/
structure LineReader where
  buffer : Text := []
  block : Block := {}

/-- The inner loop: the complete lines of the buffer. Every turn takes a character at least, so the
length of the buffer is fuel enough. -/
def drainLines : ℕ → LineReader → LineReader × List SseMessage
  | 0, reader => (reader, [])
  | fuel + 1, reader =>
    match reader.buffer.idxOf? '\n' with
    | none => (reader, [])
    | some newline =>
      let line := stripReturn (reader.buffer.take newline)
      let (block, message) := handleLine reader.block line
      let (reader, messages) := drainLines fuel ⟨reader.buffer.drop (newline + 1), block⟩
      (reader, message.toList ++ messages)

abbrev Parser := Utf8.Decoder × LineReader

def readChunk (parser : Parser) (chunk : List UInt8) : Parser × List SseMessage :=
  let (decoder, text) := Transducer.feed Utf8.decode parser.1 chunk
  let buffer := parser.2.buffer ++ text
  let (reader, messages) := drainLines buffer.length { parser.2 with buffer := buffer }
  ((decoder, reader), messages)

/-- `parseSseStream`: the messages it yields until the body ends. What is left in the buffer and
the block is discarded. -/
def parseSseStream (chunks : List (List UInt8)) : List SseMessage :=
  (Transducer.feed readChunk (({}, false), {}) chunks).2

/-! ## A character at a time

The chunks and the loop over the buffer do not show: the parser is a machine that reads one
character, and acts at the end of a line. -/

def pushChar : Transducer LineReader Char SseMessage := fun reader c =>
  if c = '\n' then
    let (block, message) := handleLine reader.block (stripReturn reader.buffer)
    (⟨[], block⟩, message.toList)
  else
    (⟨reader.buffer ++ [c], reader.block⟩, [])

variable {reader : LineReader} {block : Block} {buffer text line : Text} {c : Char}

theorem pushChar_newline : pushChar ⟨buffer, block⟩ '\n' = (⟨[], (handleLine block (stripReturn buffer)).1⟩,
      (handleLine block (stripReturn buffer)).2.toList) := rfl

theorem pushChar_other (hc : c ≠ '\n') : pushChar ⟨buffer, block⟩ c = (⟨buffer ++ [c], block⟩, []) := if_neg hc

theorem idxOf?_append_cons {a : Char} (h : a ∉ text) : (text ++ a :: line).idxOf? a = some text.length := by
  induction text with
  | nil => simp [List.idxOf?_cons]
  | cons b text ih =>
    obtain ⟨hb, htext⟩ := List.ne_and_not_mem_of_not_mem_cons h
    rw [List.cons_append, List.idxOf?_cons, if_neg (by simpa using hb.symm), ih htext]
    rfl

theorem drainLines_none (h : '\n' ∉ reader.buffer) (fuel : ℕ) : drainLines fuel reader = (reader, []) := by
  cases fuel with
  | zero => rfl
  | succ fuel => rw [drainLines, List.idxOf?_eq_none_iff.2 h]

theorem drainLines_eq_feed (hbuffer : '\n' ∉ buffer) {fuel : ℕ} (hfuel : text.length ≤ fuel) :
    drainLines fuel ⟨buffer ++ text, block⟩ = Transducer.feed pushChar ⟨buffer, block⟩ text := by
  induction text generalizing buffer block fuel with
  | nil =>
    rw [List.append_nil]
    exact drainLines_none hbuffer fuel
  | cons c text ih =>
    by_cases hc : c = '\n'
    · subst hc
      obtain ⟨fuel, rfl⟩ := Nat.exists_eq_succ_of_ne_zero (show fuel ≠ 0 by
        rw [List.length_cons] at hfuel
        omega)
      rw [Transducer.feed_cons, pushChar_newline, drainLines, idxOf?_append_cons hbuffer]
      have htake : (buffer ++ '\n' :: text).take buffer.length = buffer := List.take_left
      have hdrop : (buffer ++ '\n' :: text).drop (buffer.length + 1) = [] ++ text := by
        rw [← List.drop_drop, List.drop_left]
        rfl
      simp only [htake, hdrop]
      rw [ih List.not_mem_nil (Nat.le_of_succ_le_succ hfuel)]
    · rw [Transducer.feed_cons, pushChar_other hc, List.append_cons]
      have hbuffer' : '\n' ∉ buffer ++ [c] := List.not_mem_append hbuffer (mt List.mem_singleton.1 (Ne.symm hc))
      rw [ih hbuffer' (Nat.le_of_succ_le hfuel), List.nil_append]

theorem feed_noNewline (h : '\n' ∉ reader.buffer) (text : Text) :
    '\n' ∉ (Transducer.feed pushChar reader text).1.buffer := by
  refine Transducer.feed_invariant (P := fun reader : LineReader => '\n' ∉ reader.buffer) ?_ h
  intro reader c hreader
  by_cases hc : c = '\n'
  · subst hc
    exact List.not_mem_nil
  · rw [pushChar_other hc]
    exact List.not_mem_append hreader (mt List.mem_singleton.1 (Ne.symm hc))

def pushByte : Transducer Parser UInt8 SseMessage := Transducer.comp Utf8.decode pushChar

theorem readChunk_reads : Transducer.Reads pushByte (fun parser => '\n' ∉ parser.2.buffer) readChunk := by
  rintro ⟨decoder, reader⟩ hreader chunk
  have hchunk : readChunk (decoder, reader) chunk = Transducer.feed pushByte (decoder, reader) chunk := by
    rw [pushByte, Transducer.feed_comp, readChunk]
    dsimp only
    rw [drainLines_eq_feed hreader (by rw [List.length_append]; exact Nat.le_add_left _ _)]
  refine ⟨hchunk, ?_⟩
  rw [hchunk, pushByte, Transducer.feed_comp]
  exact feed_noNewline hreader _

/-- **The chunks do not matter.** -/
theorem parse_chunks (chunks : List (List UInt8)) :
    parseSseStream chunks = (Transducer.feed pushByte (({}, false), {}) chunks.flatten).2 := by
  rw [parseSseStream, Transducer.feed_chunks readChunk_reads List.not_mem_nil]

end OpenGeni.Stream
