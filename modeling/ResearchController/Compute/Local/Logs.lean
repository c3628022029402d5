import ResearchController.Domain.Json

/-!
# Log text

The text side of `_read_delta` and `_telemetry` of `compute/local/provider.py`: decoding bytes with
`errors="replace"`, splitting text into lines and picking the progress out of them. Decoding
consumes a maximal well-formed prefix of a sequence before it gives up on it, so one replacement
character stands for each such prefix. `json.loads` is an argument. Only its `JSONDecodeError` means
that a line is no telemetry; the other exceptions, of an integer with too many digits and of
brackets that are nested too deep, escape.
-/

namespace ResearchController
open Lib

/-- The number of continuation bytes that a lead byte announces, with the range of the first. -/
def utf8Lead (b : UInt8) : Option (Nat × UInt8 × UInt8) :=
  if 0xC2 ≤ b ∧ b ≤ 0xDF then some (1, 0x80, 0xBF)
  else if b = 0xE0 then some (2, 0xA0, 0xBF)
  else if b = 0xED then some (2, 0x80, 0x9F)
  else if 0xE1 ≤ b ∧ b ≤ 0xEF then some (2, 0x80, 0xBF)
  else if b = 0xF0 then some (3, 0x90, 0xBF)
  else if 0xF1 ≤ b ∧ b ≤ 0xF3 then some (3, 0x80, 0xBF)
  else if b = 0xF4 then some (3, 0x80, 0x8F)
  else none

/-- A sequence that has begun: the continuation bytes that are missing, the range of the next one
    and the bits read so far. -/
structure Utf8Partial where
  missing : Nat
  low : UInt8
  high : UInt8
  bits : Nat

/-- The replacement character. -/
def replacement : Char := Char.ofNat 0xFFFD

/-- Decode a byte at the start of a sequence. -/
def utf8Start (b : UInt8) : List Char × Option Utf8Partial :=
  if b < 0x80 then
    ([Char.ofNat b.toNat], none)
  else
    match utf8Lead b with
    | some (n, low, high) =>
      ([], some { missing := n, low := low, high := high, bits := b.toNat % 2 ^ (6 - n) })
    | none => ([replacement], none)

/-- Decode a byte after what was read before it. -/
def utf8Step : Option Utf8Partial → UInt8 → List Char × Option Utf8Partial
  | none, b => utf8Start b
  | some s, b =>
    if s.low ≤ b ∧ b ≤ s.high then
      let bits := s.bits * 64 + b.toNat % 64
      if s.missing = 1 then
        ([Char.ofNat bits], none)
      else
        ([], some { missing := s.missing - 1, low := 0x80, high := 0xBF, bits := bits })
    else
      -- the byte does not continue the sequence, so it starts another one
      let (chars, next) := utf8Start b
      (replacement :: chars, next)

/-- Decode the rest of the bytes. -/
def utf8Decode : Option Utf8Partial → List UInt8 → List Char
  | none, [] => []
  | some _, [] => [replacement]
  | s, b :: rest =>
    let (chars, next) := utf8Step s b
    chars ++ utf8Decode next rest

/-- `data.decode("utf-8", errors="replace")`. -/
def decodeReplace (data : List UInt8) : String :=
  String.ofList (utf8Decode none data)

/-- The characters at which `str.splitlines` breaks. -/
def isLineBreak (c : Char) : Bool :=
  [0x0A, 0x0B, 0x0C, 0x0D, 0x1C, 0x1D, 0x1E, 0x85, 0x2028, 0x2029].contains c.toNat

/-- The lines of the rest of a text, after the characters of the line that has begun. -/
def splitLinesFrom (begun : List Char) : List Char → List String
  | [] => if begun.isEmpty then [] else [String.ofList begun]
  | c :: rest =>
    if c.toNat = 0x0D then
      match rest with
      | [] => [String.ofList begun]
      | c' :: rest' =>
        -- a carriage return and a line feed are one break
        if c'.toNat = 0x0A then String.ofList begun :: splitLinesFrom [] rest'
        else String.ofList begun :: splitLinesFrom [] (c' :: rest')
    else if isLineBreak c then
      String.ofList begun :: splitLinesFrom [] rest
    else
      splitLinesFrom (begun ++ [c]) rest

/-- `str.splitlines`. -/
def splitLines (text : String) : List String :=
  splitLinesFrom [] text.toList

/-- `latest.update(value)`. -/
def JsonObject.update (latest value : JsonObject) : JsonObject :=
  value.foldl (fun latest item => latest.set item.1 item.2) latest

/-- The keys of which a telemetry line has at least one. -/
def telemetryKeys : List String := ["step", "loss", "tokens_per_sec", "elapsed_sec"]

/-- The effect of one line on the latest telemetry. -/
def telemetryLine (loads : String → Except PyErr Json) (latest : JsonObject) (line : String) :
    Except PyErr JsonObject :=
  match loads line with
  | .error (.jsonDecodeError _) => .ok latest
  | .error e => .error e
  | .ok (.dict value) =>
    if telemetryKeys.any fun key => (JsonObject.get value key).isSome then
      .ok (latest.update value)
    else
      .ok latest
  | .ok _ => .ok latest

/-- The effect of the lines of a chunk. -/
def telemetryChunk (loads : String → Except PyErr Json) (latest : JsonObject) (chunk : String) :
    Except PyErr JsonObject :=
  (splitLines chunk).foldlM (telemetryLine loads) latest

/-- `LocalProvider._telemetry`. -/
def telemetry (loads : String → Except PyErr Json) (chunks : List String) :
    Except PyErr JsonObject :=
  chunks.foldlM (telemetryChunk loads) []

end ResearchController
