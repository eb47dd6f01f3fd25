import Mathlib.Data.Nat.Digits.Defs
import PublicIntelligence.Lib.Dict
import PublicIntelligence.Lib.Encoding

namespace PublicIntelligence

/-- A Python value as `json` reads and writes it. A float is kept as its literal
(`NaN` and the infinities included); the rounding to a double is left out. The
fields of an object have distinct keys, in insertion order. -/
inductive Json where
  | null
  | bool (b : Bool)
  | int (n : Int)
  | float (literal : String)
  | str (s : Text)
  | arr (items : List Json)
  | obj (fields : List (Text × Json))

namespace Json

open Text Encoding

/-- `json.dumps` escapes everything beyond ASCII and puts a space after `,` and
`:`; pydantic's `model_dump_json` does neither. -/
inductive Style where
  | dumps
  | raw

def Style.ascii : Style → Bool
  | .dumps => true
  | .raw => false

def Style.gap : Style → Text
  | .dumps => text " "
  | .raw => []

def quoteMark : CodePoint := 34
def backslash : CodePoint := 92

def hexDigit (n : Nat) : CodePoint := if n < 10 then point (48 + n) else point (87 + n)

/-- `bytes.hex` -/
def hexText (bs : Bytes) : Text :=
  bs.flatMap fun b => [hexDigit (b.toNat / 16), hexDigit (b.toNat % 16)]

theorem length_hexText (bs : Bytes) : (hexText bs).length = 2 * bs.length := by
  simp [hexText, List.length_flatMap, mul_comm]

/-- Whatever holds of the sixteen digits holds of hexadecimal text. -/
theorem forall_mem_hexText {P : CodePoint → Prop} (hP : ∀ n < 16, P (hexDigit n)) (bs : Bytes) :
    ∀ c ∈ hexText bs, P c := by
  intro c hc
  obtain ⟨b, _, hb⟩ := List.mem_flatMap.mp hc
  have hlt := b.toNat_lt
  simp only [List.mem_cons, List.not_mem_nil, or_false] at hb
  obtain rfl | rfl := hb
  · exact hP _ (by omega)
  · exact hP _ (by omega)

theorem hexText_scalar (bs : Bytes) : Scalar (hexText bs) :=
  forall_mem_hexText (by decide) bs

def escapeUnit (n : Nat) : Text :=
  [backslash, ofChar 'u', hexDigit (n / 4096 % 16), hexDigit (n / 256 % 16), hexDigit (n / 16 % 16),
    hexDigit (n % 16)]

def highUnit (n : Nat) : Nat := 0xd800 + (n - 0x10000) / 0x400

def lowUnit (n : Nat) : Nat := 0xdc00 + (n - 0x10000) % 0x400

/-- The characters that have an escape of their own, and its letter. -/
def shortEscapes : List (CodePoint × CodePoint) :=
  [(34, 34), (92, 92), (10, ofChar 'n'), (13, ofChar 'r'), (9, ofChar 't'), (8, ofChar 'b'),
    (12, ofChar 'f')]

def escapePoint (ascii : Bool) (c : CodePoint) : Text :=
  match shortEscapes.lookup c with
  | some e => [backslash, e]
  | none =>
    if c.val < 0x20 then escapeUnit c.val
    else if ascii && 0x7f ≤ c.val then
      if c.val < 0x10000 then escapeUnit c.val
      else escapeUnit (highUnit c.val) ++ escapeUnit (lowUnit c.val)
    else [c]

def quote (ascii : Bool) (s : Text) : Text := quoteMark :: s.flatMap (escapePoint ascii) ++ [quoteMark]

def digit (d : Nat) : CodePoint := point (48 + d)

def natText (n : Nat) : Text := if n = 0 then [digit 0] else (Nat.digits 10 n).reverse.map digit

def intText (n : Int) : Text := if n < 0 then ofChar '-' :: natText n.natAbs else natText n.natAbs

mutual
def write (style : Style) : Json → Text
  | null => text "null"
  | bool b => if b then text "true" else text "false"
  | int n => intText n
  | float literal => text literal
  | str s => quote style.ascii s
  | arr [] => text "[]"
  | arr (j :: js) => ofChar '[' :: write style j ++ writeItems style js
  | obj [] => text "\x7b\x7d"
  | obj ((k, j) :: fs) =>
    ofChar '{' :: quote style.ascii k ++ ofChar ':' :: style.gap ++ write style j ++ writeFields style fs
def writeItems (style : Style) : List Json → Text
  | [] => [ofChar ']']
  | j :: js => ofChar ',' :: style.gap ++ write style j ++ writeItems style js
def writeFields (style : Style) : List (Text × Json) → Text
  | [] => [ofChar '}']
  | (k, j) :: fs =>
    ofChar ',' :: style.gap ++ quote style.ascii k ++ ofChar ':' :: style.gap ++ write style j ++
      writeFields style fs
end

/-- The most digits Python converts between an integer and its text. -/
def maxDigits : Nat := 4300

mutual
/-- Every integer in the value has a text. -/
def printable : Json → Bool
  | int n => (natText n.natAbs).length ≤ maxDigits
  | arr js => printableItems js
  | obj fs => printableFields fs
  | _ => true
def printableItems : List Json → Bool
  | [] => true
  | j :: js => printable j && printableItems js
def printableFields : List (Text × Json) → Bool
  | [] => true
  | (_, j) :: fs => printable j && printableFields fs
end

mutual
/-- No text in the value has a lone surrogate. -/
def scalar : Json → Bool
  | str s => decide (Scalar s)
  | arr js => scalarItems js
  | obj fs => scalarFields fs
  | _ => true
def scalarItems : List Json → Bool
  | [] => true
  | j :: js => scalar j && scalarItems js
def scalarFields : List (Text × Json) → Bool
  | [] => true
  | (k, j) :: fs => decide (Scalar k) && scalar j && scalarFields fs
end

/-- `json.dumps`, or the `ValueError` for an integer too long to print. -/
def dumps (j : Json) : Option Text := if printable j then some (write .dumps j) else none

/-- pydantic's `model_dump_json`, which refuses a lone surrogate. -/
def modelDumpJson (j : Json) : Option Text := if scalar j then some (write .raw j) else none

/-- `JSONDecodeError`, the `ValueError` for an integer of too many digits, and the
`UnicodeDecodeError` for bytes that are not text. -/
inductive LoadsError where
  | decode
  | integer
  | unicode
deriving DecidableEq

def isBlank (c : CodePoint) : Bool := c.val = 32 || c.val = 9 || c.val = 10 || c.val = 13

def skipBlank (t : Text) : Text := t.dropWhile isBlank

def hexValue (c : CodePoint) : Option Nat :=
  let n := c.val
  if 48 ≤ n ∧ n ≤ 57 then some (n - 48)
  else if 97 ≤ n ∧ n ≤ 102 then some (n - 87)
  else if 65 ≤ n ∧ n ≤ 70 then some (n - 55)
  else none

def hexUnit (a b c d : CodePoint) : Option Nat := do
  return (← hexValue a) * 4096 + (← hexValue b) * 256 + (← hexValue c) * 16 + (← hexValue d)

/-- What a letter after a backslash stands for. -/
def unescape (e : CodePoint) : Option CodePoint :=
  if e = ofChar '/' then some e else (shortEscapes.map Prod.swap).lookup e

/-- The characters of a string up to its closing quote, each with whether it was
written as `\uXXXX`, and what follows the quote. -/
def scanUnits : Text → Option (List (Bool × CodePoint) × Text)
  | [] => none
  | c :: cs =>
    if c = quoteMark then some ([], cs)
    else if c = backslash then
      match cs with
      | [] => none
      | e :: cs =>
        if e = ofChar 'u' then
          match cs with
          | h1 :: h2 :: h3 :: h4 :: cs =>
            match hexUnit h1 h2 h3 h4 with
            | none => none
            | some n => (scanUnits cs).map fun (us, rest) => ((true, point n) :: us, rest)
          | _ => none
        else
          match unescape e with
          | none => none
          | some c => (scanUnits cs).map fun (us, rest) => ((false, c) :: us, rest)
    else if c.val < 0x20 then none
    else (scanUnits cs).map fun (us, rest) => ((false, c) :: us, rest)

/-- Two escaped units that form a surrogate pair are one character. -/
def joinPairs : List (Bool × CodePoint) → Text
  | (true, u) :: (true, v) :: us =>
    if isHigh u && isLow v then
      point (0x10000 + (u.val - 0xd800) * 0x400 + (v.val - 0xdc00)) :: joinPairs us
    else u :: joinPairs ((true, v) :: us)
  | (_, c) :: us => c :: joinPairs us
  | [] => []

def scanString (t : Text) : Option (Text × Text) :=
  (scanUnits t).map fun (us, rest) => (joinPairs us, rest)

def isDigit (c : CodePoint) : Bool := 48 ≤ c.val && c.val ≤ 57

def digitsValue (ds : Text) : Nat := Nat.ofDigits 10 (ds.reverse.map (·.val - 48))

/-- The digits before the point: a single zero, or no leading zero. -/
def scanWhole (t : Text) : Text × Text :=
  match t with
  | c :: cs => if c = digit 0 then ([c], cs) else (t.takeWhile isDigit, t.dropWhile isDigit)
  | [] => ([], [])

def scanFraction (t : Text) : Text × Text :=
  match t with
  | c :: cs =>
    let ds := cs.takeWhile isDigit
    if c = ofChar '.' ∧ ds ≠ [] then (c :: ds, cs.dropWhile isDigit) else ([], t)
  | [] => ([], [])

def scanExponent (t : Text) : Text × Text :=
  match t with
  | c :: cs =>
    let sign := cs.takeWhile (fun s => s = ofChar '+' || s = ofChar '-') |>.take 1
    let ds := (cs.drop sign.length).takeWhile isDigit
    if (c = ofChar 'e' ∨ c = ofChar 'E') ∧ ds ≠ [] then
      (c :: sign ++ ds, (cs.drop sign.length).dropWhile isDigit)
    else ([], t)
  | [] => ([], [])

def scanNumber (t : Text) : Except LoadsError (Json × Text) :=
  let sign := if t.head? = some (ofChar '-') then t.take 1 else []
  let (whole, t) := scanWhole (t.drop sign.length)
  let (fraction, t) := scanFraction t
  let (exponent, t) := scanExponent t
  if whole = [] then .error .decode
  else if fraction = [] ∧ exponent = [] then
    if maxDigits < whole.length then .error .integer
    else .ok (int (if sign = [] then digitsValue whole else -digitsValue whole), t)
  else .ok (float (Text.literal (sign ++ whole ++ fraction ++ exponent)), t)

/-- The names that stand for a value. -/
def constants : List (Text × Json) :=
  [(text "null", null), (text "true", bool true), (text "false", bool false),
    (text "NaN", float "NaN"), (text "Infinity", float "Infinity"),
    (text "-Infinity", float "-Infinity")]

def scanConstant (t : Text) : Option (Json × Text) :=
  (constants.find? fun (name, _) => name.isPrefixOf t).map fun (name, j) => (j, t.drop name.length)

mutual
/-- `scan_once` at the start of the text. Every second call consumes a character,
so twice the text's length is enough fuel. -/
def scanOnce : Nat → Text → Except LoadsError (Json × Text)
  | 0, _ => .error .decode
  | _, [] => .error .decode
  | n + 1, c :: cs =>
    if c = quoteMark then
      match scanString cs with
      | none => .error .decode
      | some (s, rest) => .ok (str s, rest)
    else if c = ofChar '[' then
      let cs := skipBlank cs
      if cs.head? = some (ofChar ']') then .ok (arr [], cs.tail)
      else (scanItems n cs).map fun (js, rest) => (arr js, rest)
    else if c = ofChar '{' then
      let cs := skipBlank cs
      if cs.head? = some (ofChar '}') then .ok (obj [], cs.tail)
      else (scanFields n cs).map fun (fs, rest) =>
        (obj (fs.foldl (fun d (k, j) => Dict.put k j d) []), rest)
    else
      match scanConstant (c :: cs) with
      | some found => .ok found
      | none => scanNumber (c :: cs)
/-- The rest of an array from one of its values on. -/
def scanItems : Nat → Text → Except LoadsError (List Json × Text)
  | 0, _ => .error .decode
  | n + 1, t => do
    let (j, t) ← scanOnce n t
    match skipBlank t with
    | [] => .error .decode
    | c :: cs =>
      if c = ofChar ',' then
        let (js, rest) ← scanItems n (skipBlank cs)
        return (j :: js, rest)
      else if c = ofChar ']' then return ([j], cs)
      else .error .decode
/-- The rest of an object from one of its keys on. -/
def scanFields : Nat → Text → Except LoadsError (List (Text × Json) × Text)
  | 0, _ => .error .decode
  | _, [] => .error .decode
  | n + 1, q :: t =>
    if q ≠ quoteMark then .error .decode
    else
      match scanString t with
      | none => .error .decode
      | some (k, t) =>
        match skipBlank t with
        | [] => .error .decode
        | colon :: t =>
          if colon ≠ ofChar ':' then .error .decode
          else do
            let (j, t) ← scanOnce n (skipBlank t)
            match skipBlank t with
            | [] => .error .decode
            | c :: cs =>
              if c = ofChar ',' then
                let (fs, rest) ← scanFields n (skipBlank cs)
                return ((k, j) :: fs, rest)
              else if c = ofChar '}' then return ([(k, j)], cs)
              else .error .decode
end

/-- `JSONDecoder.decode`: one value with nothing but blanks around it. -/
def decodeText (t : Text) : Except LoadsError Json := do
  let (j, rest) ← scanOnce (2 * t.length + 1) (skipBlank t)
  if skipBlank rest = [] then return j else .error .decode

/-- `json.loads` of a string, which refuses a byte order mark. -/
def loads (t : Text) : Except LoadsError Json :=
  if t.head? = some 0xfeff then .error .decode else decodeText t

/-- `json.loads` of bytes. -/
def loadsBytes (bs : Bytes) : Except LoadsError Json :=
  match decodeDetected bs with
  | none => .error .unicode
  | some t => decodeText t

abbrev Fields := List (Text × Json)

/-- `value.get(key)` on an object. -/
def get? (fs : Fields) (key : String) : Option Json := Dict.find (text key) fs

def asStr : Option Json → Option Text
  | some (.str s) => some s
  | _ => none

/-- An integer or a float; a boolean is neither. -/
def asNumber : Option Json → Option Json
  | some (.int n) => some (.int n)
  | some (.float l) => some (.float l)
  | _ => none

/-- Whether a float's literal is one of zero. -/
def zeroLiteral (l : String) : Bool :=
  (l.toList.takeWhile fun c => c != 'e' && c != 'E').all fun c => c == '-' || c == '.' || c == '0'

def truthy : Json → Bool
  | null => false
  | bool b => b
  | int n => n != 0
  | float l => !zeroLiteral l
  | str s => !s.isEmpty
  | arr js => !js.isEmpty
  | obj fs => !fs.isEmpty

/-- `str()` of a float or a container, and `int()` of a float or a string: what
Python's own formatting and parsing decide, and no code here looks into. -/
structure Builtins where
  str : Json → Text
  int : Json → Option Int

def Builtins.strOf (py : Builtins) : Json → Text
  | null => text "None"
  | bool b => text (if b then "True" else "False")
  | .int n => intText n
  | .str s => s
  | j => py.str j

/-- `int()`, or `none` where it raises. -/
def Builtins.intOf (py : Builtins) : Json → Option Int
  | .int n => some n
  | bool b => some (if b then 1 else 0)
  | null => none
  | arr _ => none
  | obj _ => none
  | j => py.int j

end Json
end PublicIntelligence
