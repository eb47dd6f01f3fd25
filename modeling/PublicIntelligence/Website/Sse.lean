import PublicIntelligence.Lib.Json

namespace PublicIntelligence.Website

open Text Json

/-- What `trim` strips. A string of the website is the sequence of its UTF-16 units, so that a
surrogate is a character like any other. -/
def isWhiteSpace (c : CodePoint) : Bool :=
  let n := c.val
  (9 ≤ n && n ≤ 13) || n = 0x20 || n = 0xa0 || n = 0x1680 || (0x2000 ≤ n && n ≤ 0x200a) || n = 0x2028 ||
    n = 0x2029 || n = 0x202f || n = 0x205f || n = 0x3000 || n = 0xfeff

def trim (t : Text) : Text := ((t.dropWhile isWhiteSpace).reverse.dropWhile isWhiteSpace).reverse

/-- The rest of a string of JSON. Two escaped surrogates stay two units. -/
def parseString (t : Text) : Option (Text × Text) := (scanUnits t).map fun r => (r.1.map Prod.snd, r.2)

def parseNumber (t : Text) : Option (Json × Text) :=
  let sign := if t.head? = some (ofChar '-') then t.take 1 else []
  let whole := scanWhole (t.drop sign.length)
  let fraction := scanFraction whole.2
  let exponent := scanExponent fraction.2
  if whole.1 = [] then none
  else some (.float (literal (sign ++ whole.1 ++ fraction.1 ++ exponent.1)), exponent.2)

def parseName (t : Text) : Option (Json × Text) :=
  ([(text "null", .null), (text "true", .bool true), (text "false", .bool false)].find? fun e => e.1.isPrefixOf t).map
    fun e => (e.2, t.drop e.1.length)

mutual
/-- The value at the start of a text, and what follows it. Every second call consumes a
character, so twice the text's length is enough fuel. -/
def parseValue : Nat → Text → Option (Json × Text)
  | 0, _ => none
  | _, [] => none
  | n + 1, c :: cs =>
    if c = quoteMark then (parseString cs).map fun r => (.str r.1, r.2)
    else if c = ofChar '[' then
      let cs := skipBlank cs
      if cs.head? = some (ofChar ']') then some (.arr [], cs.tail)
      else (parseItems n cs).map fun r => (.arr r.1, r.2)
    else if c = ofChar '{' then
      let cs := skipBlank cs
      if cs.head? = some (ofChar '}') then some (.obj [], cs.tail)
      else (parseFields n cs).map fun r => (.obj (r.1.foldl (fun d e => Dict.put e.1 e.2 d) []), r.2)
    else (parseName (c :: cs)).or (parseNumber (c :: cs))
/-- The rest of an array from one of its values on. -/
def parseItems : Nat → Text → Option (List Json × Text)
  | 0, _ => none
  | n + 1, t => do
    let value ← parseValue n t
    match skipBlank value.2 with
    | [] => none
    | c :: cs =>
      if c = ofChar ',' then (parseItems n (skipBlank cs)).map fun r => (value.1 :: r.1, r.2)
      else if c = ofChar ']' then some ([value.1], cs)
      else none
/-- The rest of an object from one of its keys on. -/
def parseFields : Nat → Text → Option (List (Text × Json) × Text)
  | 0, _ => none
  | _, [] => none
  | n + 1, q :: t =>
    if q ≠ quoteMark then none
    else do
      let key ← parseString t
      match skipBlank key.2 with
      | [] => none
      | colon :: t =>
        if colon ≠ ofChar ':' then none
        else do
          let value ← parseValue n (skipBlank t)
          match skipBlank value.2 with
          | [] => none
          | c :: cs =>
            if c = ofChar ',' then (parseFields n (skipBlank cs)).map fun r => ((key.1, value.1) :: r.1, r.2)
            else if c = ofChar '}' then some ([(key.1, value.1)], cs)
            else none
end

/-- `JSON.parse`, or `none` for a `SyntaxError`. A number is kept as its literal. -/
def jsonParse (t : Text) : Option Json := do
  let value ← parseValue (2 * t.length + 1) (skipBlank t)
  if skipBlank value.2 = [] then some value.1 else none

/-- `value?.key`, or `none` for `undefined`: what is no object has no key that is asked for here. -/
def member (key : String) : Json → Option Json
  | .obj fields => get? fields key
  | _ => none

/-- The first item of an array that has one. -/
def firstItem : Json → Option Json
  | .arr items => items.head?
  | _ => none

/-- `choices[0].delta.content`, then `choices[0].text`. -/
def extractDelta (chunk : Json) : Text :=
  match (member "choices" chunk).bind firstItem with
  | none => []
  | some first =>
    (asStr ((member "delta" first).bind (member "content"))).getD ((asStr (member "text" first)).getD [])

structure SseEvent where
  delta : Text
  done : Bool
deriving DecidableEq

def parseSseLine (line : Text) : SseEvent :=
  let trimmed := trim line
  if trimmed = [] ∨ startswith trimmed (text "data:") = false then ⟨[], false⟩
  else
    let dataStr := trim (trimmed.drop 5)
    if dataStr = text "[DONE]" then ⟨[], true⟩
    else
      match jsonParse dataStr with
      | some parsed => ⟨extractDelta parsed, false⟩
      | none => ⟨[], false⟩

def estimateTokens (t : Text) : Nat := if t = [] then 0 else max 1 (t.length / 4)

def newline : CodePoint := ofChar '\n'

structure SseBuffer where
  lines : List Text
  rest : Text

def splitSseBuffer (buffer : Text) : SseBuffer :=
  let parts := split buffer newline
  ⟨parts.dropLast, parts.getLast?.getD []⟩

/-- A text that goes on gives the lines it gave, and then those of its rest and what comes in. -/
theorem splitSseBuffer_append (s t : Text) :
    (splitSseBuffer (s ++ t)).lines =
        (splitSseBuffer s).lines ++ (splitSseBuffer ((splitSseBuffer s).rest ++ t)).lines ∧
      (splitSseBuffer (s ++ t)).rest = (splitSseBuffer ((splitSseBuffer s).rest ++ t)).rest := by
  have hne : split ((split s newline).getLast?.getD [] ++ t) newline ≠ [] := splitFrom_ne_nil _ _ _
  unfold splitSseBuffer
  dsimp only
  rw [split_concat]
  constructor
  · exact List.dropLast_append_of_ne_nil hne
  · rw [List.getLast?_append_of_ne_nil _ hne]

example :
    parseSseLine (text "data: \x7b\"choices\": [\x7b\"delta\": \x7b\"content\": \" Hi\"\x7d\x7d]\x7d\r") =
      ⟨text " Hi", false⟩ := by
  decide +kernel

end PublicIntelligence.Website
