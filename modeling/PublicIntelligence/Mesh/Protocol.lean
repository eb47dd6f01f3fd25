import PublicIntelligence.Lib.JsonRead

namespace PublicIntelligence.Mesh

open Text Encoding Json

def envelope (fields : List (String × Json)) : Fields := fields.map fun (k, j) => (text k, j)

/-- `json.dumps(...).encode("utf-8")` -/
def pack (fields : List (String × Json)) : Option Bytes := (dumps (.obj (envelope fields))).bind encode

/-- The single reply to a non-streaming request. -/
def encodeResult (model response : Text) : Option Bytes :=
  pack [("ok", .bool true), ("model", .str model), ("response", .str response)]

def encodeChunk (index : Nat) (chunk : Text) : Option Bytes :=
  pack [("ok", .bool true), ("i", .int index), ("chunk", .str chunk)]

def encodeDone : Option Bytes := pack [("ok", .bool true), ("done", .bool true)]

def encodeError (message : Text) (status : Nat) : Option Bytes :=
  pack [("ok", .bool false), ("status", .int status), ("error", .str message)]

/-- `decode_reply`, or `none` where it raises. -/
def decodeReply (payload : Bytes) : Option Fields :=
  match loads (decodeReplace payload) with
  | .ok (.obj fields) => some fields
  | _ => none

/-- The receiver reads what the sender packed. -/
theorem decode_pack (hj : Readable (.obj (envelope fields))) (hb : pack fields = some b) :
    decodeReply b = some (envelope fields) := by
  obtain ⟨t, ht, he⟩ := Option.bind_eq_some_iff.mp hb
  obtain ⟨bs, hbs, hdec, hread⟩ := dumps_encodes ht
  cases Option.some.inj (he.symm.trans hbs)
  rw [decodeReply, hdec, hread (lossless_of_readable _ hj)]

theorem pack_printable (hb : pack fields = some b) :
    printable (.obj (envelope fields)) = true := by
  obtain ⟨t, ht, _⟩ := Option.bind_eq_some_iff.mp hb
  unfold dumps at ht
  split at ht
  · assumption
  · cases ht

/-- A reply whose integers have a text is always sent. -/
theorem pack_total (h : printable (.obj (envelope fields)) = true) : ∃ b, pack fields = some b := by
  have ht : dumps (.obj (envelope fields)) = some (write .dumps (.obj (envelope fields))) := if_pos h
  obtain ⟨bs, hbs, _⟩ := dumps_encodes ht
  exact ⟨bs, by rw [pack, ht, Option.bind_some, hbs]⟩

theorem decode_encodeChunk (hs : Scalar chunk) (hb : encodeChunk index chunk = some b) :
    decodeReply b = some (envelope [("ok", .bool true), ("i", .int index), ("chunk", .str chunk)]) := by
  have hkeys : [text "ok", text "i", text "chunk"].Nodup := by decide +kernel
  have hindex : Readable (.int index) := by
    have hp := pack_printable hb
    simpa [envelope, printable, printableFields, Readable] using hp
  exact decode_pack
    ⟨hkeys, scalar_text _, trivial, scalar_text _, hindex, scalar_text _, joined_of_scalar hs,
      trivial⟩ hb

/-- The message of an error arrives as JSON carries it. -/
theorem decode_encodeError (hb : encodeError message status = some b) :
    decodeReply b = some (envelope [("ok", .bool false), ("status", .int status),
      ("error", .str (joined message))]) := by
  have hkeys : [text "ok", text "status", text "error"].Nodup := by decide +kernel
  have hstatus : Readable (.int status) := by
    have hp := pack_printable hb
    simpa [envelope, printable, printableFields, Readable] using hp
  have hsame : encodeError (joined message) status = encodeError message status := by
    simp only [encodeError, pack, dumps, envelope, List.map_cons, List.map_nil, printable,
      printableFields, write, writeFields, quote, Style.ascii, escapes_joined]
  rw [← hsame] at hb
  exact decode_pack
    ⟨hkeys, scalar_text _, trivial, scalar_text _, hstatus, scalar_text _, joined_joined message,
      trivial⟩ hb

theorem decode_encodeDone : ∃ b, encodeDone = some b ∧
    decodeReply b = some (envelope [("ok", .bool true), ("done", .bool true)]) := by
  obtain ⟨b, hb⟩ : ∃ b, encodeDone = some b := pack_total (by decide +kernel)
  exact ⟨b, hb, decode_pack ⟨by decide +kernel, scalar_text _, trivial, scalar_text _, trivial, trivial⟩ hb⟩

/-- A result is always sent, and read as it was meant. -/
theorem decode_encodeResult (hm : Scalar model) (hr : Scalar response) :
    ∃ b, encodeResult model response = some b ∧ decodeReply b =
      some (envelope [("ok", .bool true), ("model", .str model), ("response", .str response)]) := by
  have hkeys : [text "ok", text "model", text "response"].Nodup := by decide +kernel
  obtain ⟨b, hb⟩ : ∃ b, encodeResult model response = some b := pack_total rfl
  exact ⟨b, hb, decode_pack
    ⟨hkeys, scalar_text _, trivial, scalar_text _, joined_of_scalar hm, scalar_text _,
      joined_of_scalar hr, trivial⟩ hb⟩

end PublicIntelligence.Mesh
