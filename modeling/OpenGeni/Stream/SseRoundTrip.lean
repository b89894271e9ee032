/-
What the parser gives out of what the server wrote.

A stream is a list of items: events, comment lines and blank lines. One message comes out for each
event whose block is complete, however the bytes are cut into chunks and wherever they end.
-/
import OpenGeni.Stream.Sse

namespace OpenGeni.Stream

open OpenGeni.Lib OpenGeni.Lib.Json

/-! ## Streams -/

inductive LineEnd
  | lf
  | crlf

def LineEnd.carriage : LineEnd → Text
  | .lf => []
  | .crlf => ['\r']

def LineEnd.write (ending : LineEnd) (text : Text) : Text :=
  text.flatMap fun c => if c = '\n' then ending.carriage ++ ['\n'] else [c]

def Comment := { text : Text // '\n' ∉ text }

/-- What a stream is made of. Whoever passes it on may have changed the line ends. -/
inductive Item
  | event (e : WireEvent) (ending : LineEnd)
  | comment (c : Comment) (ending : LineEnd)
  | blank (ending : LineEnd)

def Item.text : Item → Text
  | .event e ending => ending.write (formatSse e)
  | .comment c ending => ':' :: c.val ++ (ending.carriage ++ ['\n'])
  | .blank ending => ending.carriage ++ ['\n']

def events (items : List Item) : List WireEvent := items.filterMap fun item =>
    match item with
    | .event e _ => some e
    | _ => none

def messageOf (event : WireEvent) : SseMessage :=
  { id := some (decimal event.sequence), event := some event.type.name.toList
    data := stringify (WireEvent.toJson event) }

def Item.message : Item → Option SseMessage
  | .event e _ => some (messageOf e)
  | _ => none

def streamText (items : List Item) : Text := items.flatMap Item.text

/-- The items that the first `n` bytes hold whole. -/
def terminated : ℕ → List Item → List Item
  | _, [] => []
  | n, item :: items =>
    if (Utf8.encode item.text).length ≤ n then
      item :: terminated (n - (Utf8.encode item.text).length) items
    else
      []

/-! ## Lines -/

variable {block : Block} {line name value text : Text}

theorem feed_oneLine {reader : LineReader} (h : '\n' ∉ text) :
    Transducer.feed pushChar reader text = (⟨reader.buffer ++ text, reader.block⟩, []) := by
  induction text generalizing reader with
  | nil => simp
  | cons c text ih =>
    obtain ⟨hc, htext⟩ := List.ne_and_not_mem_of_not_mem_cons h
    apply Transducer.feed_cons_silent (pushChar_other hc.symm)
    rw [ih htext, List.append_assoc, List.singleton_append]

theorem feed_line (h : '\n' ∉ line) : Transducer.feed pushChar ⟨[], block⟩ (line ++ ['\n']) =
      (⟨[], (handleLine block (stripReturn line)).1⟩, (handleLine block (stripReturn line)).2.toList) := by
  rw [Transducer.feed_append, feed_oneLine h]
  simp [Transducer.feed_cons, pushChar_newline]

theorem stripReturn_carriage (h : '\r' ∉ line) (ending : LineEnd) :
    stripReturn (line ++ ending.carriage) = line := by
  unfold stripReturn
  cases ending with
  | lf =>
    rw [LineEnd.carriage, List.append_nil, if_neg]
    intro hlast
    exact h (List.mem_of_getLast? hlast)
  | crlf => rw [LineEnd.carriage, List.getLast?_concat, if_pos rfl, List.dropLast_concat]

theorem not_mem_carriage (ending : LineEnd) : '\n' ∉ ending.carriage := by
  cases ending with
  | lf | crlf => decide

theorem feed_lineEnd (h : OneLine line) (ending : LineEnd) :
    Transducer.feed pushChar ⟨[], block⟩ (line ++ (ending.carriage ++ ['\n'])) =
      (⟨[], (handleLine block line).1⟩, (handleLine block line).2.toList) := by
  rw [← List.append_assoc, feed_line (List.not_mem_append h.1 (not_mem_carriage ending)), stripReturn_carriage h.2]

theorem LineEnd.write_line (ending : LineEnd) (h : '\n' ∉ line) (rest : Text) :
    ending.write (line ++ '\n' :: rest) = line ++ (ending.carriage ++ ['\n']) ++ ending.write rest := by
  induction line with
  | nil => rfl
  | cons c line ih =>
    obtain ⟨hc, hline⟩ := List.ne_and_not_mem_of_not_mem_cons h
    rw [LineEnd.write, List.cons_append, List.flatMap_cons, ← LineEnd.write, ih hline, if_neg hc.symm]
    rfl

def field (name : String) (value : Text) : Text := name.toList ++ ':' :: ' ' :: value

theorem handleLine_field {name : String} (hname : name.toList ≠ []) (hcolon : ':' ∉ name.toList) :
    handleLine block (field name value) = if name.toList = "data".toList then
        ({ block with dataLines := some (block.dataLines.getD [] ++ [value]) }, none)
      else if name.toList = "event".toList then
        ({ block with event := some value }, none)
      else if name.toList = "id".toList then
        ({ block with id := some value }, none)
      else
        (block, none) := by
  have hhead : (field name value).head? ≠ some ':' := by
    rw [field, List.head?_append_of_ne_nil _ hname]
    intro heq
    exact hcolon (List.mem_of_head? heq)
  have htake : (field name value).take name.toList.length = name.toList := List.take_left
  have hdrop : (field name value).drop (name.toList.length + 1) = ' ' :: value := by
    rw [← List.drop_drop, field, List.drop_left]
    rfl
  unfold handleLine
  have hcolonAt : (field name value).idxOf? ':' = some name.toList.length := idxOf?_append_cons hcolon
  have hnil : field name value ≠ [] := List.append_ne_nil_of_left_ne_nil hname _
  rw [if_neg hnil, if_neg hhead, hcolonAt]
  simp only [htake, hdrop, List.head?_cons, if_true, List.drop_one, List.tail_cons]

theorem oneLine_field (name : String) (hname : OneLine name.toList) (hvalue : OneLine value) :
    OneLine (field name value) :=
  hname.append ((hvalue.cons (by decide)).cons (by decide))

theorem handleLine_comment (ending : LineEnd) :
    handleLine block (stripReturn (':' :: text ++ ending.carriage)) = (block, none) := by
  have hhead (rest : Text) : (stripReturn (':' :: rest)).head? = some ':' := by
    unfold stripReturn
    split
    · cases rest with
      | nil => contradiction
      | cons c rest => rfl
    · rfl
  have hline := hhead (text ++ ending.carriage)
  rw [List.cons_append, handleLine, if_neg, if_pos hline]
  intro hnil
  rw [hnil] at hline
  contradiction

/-! ## Blocks -/

theorem oneLine_type (type : SessionEventType) : OneLine type.name.toList := by
  cases type <;> decide

theorem oneLine_decimal (n : ℕ) : OneLine (decimal n) := oneLine_number ⟨decimal n, Json.all_toDigits n⟩

theorem formatSse_eq (e : WireEvent) :
    formatSse e = field "id" (decimal e.sequence) ++ '\n' :: (field "event" e.type.name.toList ++
      '\n' :: (field "data" (stringify (WireEvent.toJson e)) ++ '\n' :: ([] ++ '\n' :: []))) := by
  simp [formatSse, field]

theorem feed_id (block : Block) (e : WireEvent) (ending : LineEnd) : Transducer.feed pushChar ⟨[], block⟩
        (field "id" (decimal e.sequence) ++ (ending.carriage ++ ['\n'])) =
      (⟨[], { block with id := some (decimal e.sequence) }⟩, []) := by
  rw [feed_lineEnd (oneLine_field _ (by decide) (oneLine_decimal _)),
    handleLine_field (by decide) (by decide), if_neg (by decide), if_neg (by decide),
    if_pos (by decide)]
  rfl

theorem feed_event (e : WireEvent) (ending : LineEnd) : Transducer.feed pushChar ⟨[], block⟩
        (field "event" e.type.name.toList ++ (ending.carriage ++ ['\n'])) =
      (⟨[], { block with event := some e.type.name.toList }⟩, []) := by
  rw [feed_lineEnd (oneLine_field _ (by decide) (oneLine_type _)),
    handleLine_field (by decide) (by decide), if_neg (by decide), if_pos (by decide)]
  rfl

theorem feed_data (e : WireEvent) (ending : LineEnd) : Transducer.feed pushChar ⟨[], block⟩
        (field "data" (stringify (WireEvent.toJson e)) ++ (ending.carriage ++ ['\n'])) =
      (⟨[], { block with dataLines := some (block.dataLines.getD [] ++ [stringify (WireEvent.toJson e)]) }⟩,
        []) := by
  rw [feed_lineEnd (oneLine_field _ (by decide) (oneLine_stringify _)),
    handleLine_field (by decide) (by decide), if_pos (by decide)]
  rfl

theorem Item.shape (item : Item) : ∃ body last block, item.text = body ++ (last ++ ['\n']) ∧
      Transducer.feed pushChar {} body = (⟨[], block⟩, []) ∧ '\n' ∉ last ∧
      handleLine block (stripReturn last) = ({}, item.message) := by
  cases item with
  | event e ending =>
    have hfields := Transducer.feed_trans (feed_id {} e ending)
      (Transducer.feed_trans (feed_event e ending) (feed_data e ending))
    refine ⟨_, ending.carriage, _, ?_, hfields, not_mem_carriage ending, ?_⟩
    · have hid := (oneLine_field "id" (by decide) (oneLine_decimal e.sequence)).1
      have hevent := (oneLine_field "event" (by decide) (oneLine_type e.type)).1
      have hdata := (oneLine_field "data" (by decide) (oneLine_stringify (WireEvent.toJson e))).1
      rw [Item.text, formatSse_eq, LineEnd.write_line ending hid, LineEnd.write_line ending hevent,
        LineEnd.write_line ending hdata, LineEnd.write_line ending List.not_mem_nil]
      simp [LineEnd.write]
    · rw [← List.nil_append ending.carriage, stripReturn_carriage List.not_mem_nil]
      simp [handleLine, dispatch, Item.message, messageOf]
  | comment c ending =>
    refine ⟨[], ':' :: c.val ++ ending.carriage, {}, ?_, rfl, ?_, handleLine_comment ending⟩
    · rw [Item.text, List.nil_append, List.append_assoc]
    · exact List.not_mem_append (List.not_mem_cons_of_ne_of_not_mem (by decide) c.property)
        (not_mem_carriage ending)
  | blank ending =>
    refine ⟨[], ending.carriage, {}, rfl, rfl, not_mem_carriage ending, ?_⟩
    rw [← List.nil_append ending.carriage, stripReturn_carriage List.not_mem_nil]
    rfl

theorem feed_item (item : Item) : Transducer.feed pushChar {} item.text = ({}, item.message.toList) := by
  obtain ⟨body, last, block, htext, hbody, hlast, hline⟩ := item.shape
  have hend : Transducer.feed pushChar ⟨[], block⟩ (last ++ ['\n']) = ({}, item.message.toList) := by
    rw [feed_line hlast, hline]
  rw [htext]
  exact Transducer.feed_trans hbody hend

theorem feed_item_dropLast (item : Item) : item.text = item.text.dropLast ++ ['\n'] ∧
      (Transducer.feed pushChar {} item.text.dropLast).2 = [] := by
  obtain ⟨body, last, block, htext, hbody, hlast, hline⟩ := item.shape
  rw [← List.append_assoc] at htext
  rw [htext, List.dropLast_concat, Transducer.feed_trans hbody (feed_oneLine hlast)]
  exact ⟨rfl, rfl⟩

theorem feed_items (items : List Item) :
    Transducer.feed pushChar {} (streamText items) = ({}, (events items).map messageOf) := by
  induction items with
  | nil => rfl
  | cons item items ih =>
    have hitem := Transducer.feed_trans (feed_item item) ih
    rw [streamText, List.flatMap_cons, ← streamText, hitem]
    cases item with
    | _ => rfl

/-! ## Bytes -/

theorem parse_encode {t : Text} (ht : t.head? ≠ some (Char.ofNat 0xFEFF)) :
    (Transducer.feed pushByte (({}, false), {}) (Utf8.encode t)).2 = (Transducer.feed pushChar {} t).2 := by
  rw [pushByte, Transducer.feed_comp]
  cases t with
  | nil => rfl
  | cons c t =>
    have hc : c ≠ Char.ofNat 0xFEFF := fun heq => ht (by rw [heq, List.head?_cons])
    rw [Utf8.decode_encode hc]

theorem head_streamText (items : List Item) : (streamText items).head? ≠ some (Char.ofNat 0xFEFF) := by
  cases items with
  | nil => decide
  | cons item items =>
    rw [streamText, List.flatMap_cons, List.head?_append]
    cases item with
    | event e ending =>
      have hfirst : (ending.write (formatSse e)).head? = some 'i' := by
        rw [formatSse_eq]
        rfl
      rw [Item.text, hfirst]
      intro heq
      exact absurd (Option.some.inj heq) (by decide)
    | comment c ending =>
      intro heq
      exact absurd (Option.some.inj heq) (by decide)
    | blank ending =>
      cases ending with
      | lf | crlf => intro heq; exact absurd (Option.some.inj heq) (by decide)

theorem head_of_isPrefix {t t' : Text} (h : t <+: t') {c : Char} (ht : t'.head? ≠ some c) : t.head? ≠ some c := by
  obtain ⟨rest, rfl⟩ := h
  intro heq
  rw [List.head?_append, heq] at ht
  exact ht rfl

theorem take_bytes (items : List Item) (n : ℕ) : ∃ t, streamText (terminated n items) ++ t <+: streamText items ∧
      (Transducer.feed pushChar {} t).2 = [] ∧
      Utf8.encode (streamText (terminated n items)) <+: (Utf8.encode (streamText items)).take n ∧
      (Utf8.encode (streamText items)).take n <+: Utf8.encode (streamText (terminated n items) ++ t) := by
  induction items generalizing n with
  | nil => exact ⟨[], by simp [streamText, terminated]⟩
  | cons item items ih =>
    have hbytes : Utf8.encode (streamText (item :: items)) =
        Utf8.encode item.text ++ Utf8.encode (streamText items) := Utf8.encode_append _ _
    rw [hbytes]
    by_cases hn : (Utf8.encode item.text).length ≤ n
    · obtain ⟨t, htext, hsilent, hlow, hhigh⟩ := ih (n - (Utf8.encode item.text).length)
      have hdone : streamText (terminated n (item :: items)) =
          item.text ++ streamText (terminated (n - (Utf8.encode item.text).length) items) := by
        rw [terminated, if_pos hn]
        rfl
      refine ⟨t, ?_, hsilent, ?_, ?_⟩
      · rw [hdone, List.append_assoc]
        exact (List.prefix_append_right_inj _).2 htext
      · rw [hdone, Utf8.encode_append, List.take_append, List.take_of_length_le hn]
        exact (List.prefix_append_right_inj _).2 hlow
      · rw [hdone, List.append_assoc, Utf8.encode_append, List.take_append, List.take_of_length_le hn]
        exact (List.prefix_append_right_inj _).2 hhigh
    · obtain ⟨hlast, hsilent⟩ := feed_item_dropLast item
      have hnone : terminated n (item :: items) = [] := by rw [terminated, if_neg hn]
      have hitem : Utf8.encode item.text = Utf8.encode item.text.dropLast ++ [0x0A] := by
        conv_lhs => rw [hlast, Utf8.encode_append]
        rfl
      have hlength : n ≤ (Utf8.encode item.text.dropLast).length := by
        rw [hitem, List.length_append, List.length_singleton] at hn
        omega
      rw [hnone]
      refine ⟨item.text.dropLast, ?_, hsilent, List.nil_prefix, ?_⟩
      · exact (List.dropLast_prefix _).trans (List.prefix_append _ _)
      · rw [hitem, List.append_assoc, List.take_append_of_le_length hlength]
        exact List.take_prefix _ _

/-- **What was written is read.** Cut into chunks anywhere, a stream yields one message for each of
its events; a stream that ends after any byte yields the messages of the blocks that are
complete. -/
theorem parse_formatSse (items : List Item) (chunks : List (List UInt8)) :
    (chunks.flatten = Utf8.encode (streamText items) → parseSseStream chunks = (events items).map messageOf) ∧
    ∀ n, chunks.flatten = (Utf8.encode (streamText items)).take n →
      parseSseStream chunks = (events (terminated n items)).map messageOf := by
  constructor
  · intro hchunks
    rw [parse_chunks, hchunks, parse_encode (head_streamText items), feed_items]
  · intro n hchunks
    obtain ⟨t, htext, hsilent, hlow, hhigh⟩ := take_bytes items n
    have hwhole := parse_encode (head_streamText (terminated n items))
    have hmore := parse_encode (head_of_isPrefix htext (head_streamText items))
    rw [feed_items] at hwhole
    rw [Transducer.feed_append, feed_items, hsilent, List.append_nil] at hmore
    rw [parse_chunks, hchunks, Transducer.feed_between hlow hhigh (hmore.trans hwhole.symm), hwhole]

/-- A comment and an event with a character of two bytes in its payload. -/
def greeting : List Item := [.comment ⟨" connected".toList, by decide⟩ .crlf, .blank .crlf, .event
     { id := .ascii "e1", workspaceId := .ascii "w", sessionId := .ascii "s", sequence := 12
       type := .userMessage, payload := .string [0x63, 0xE9], occurredAt := .ascii "2026-01-01T00:00:00.000Z" } .lf]

/-- Read byte by byte, the event comes out; without the last byte it does not. -/
theorem parse_formatSse_greeting : let bytes := Utf8.encode (streamText greeting)
    parseSseStream (bytes.map fun byte => [byte]) = (events greeting).map messageOf ∧
      parseSseStream ((bytes.take (bytes.length - 1)).map fun byte => [byte]) = [] := by
  intro bytes
  refine ⟨(parse_formatSse greeting _).1 (List.flatMap_singleton' _), ?_⟩
  rw [(parse_formatSse greeting _).2 (bytes.length - 1) (List.flatMap_singleton' _)]
  decide +kernel

end OpenGeni.Stream
