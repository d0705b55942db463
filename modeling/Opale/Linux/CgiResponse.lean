import Opale.Js.Number
import Opale.Streams.Separator

namespace Opale.Linux.Cgi

open Js (JsNumber trim)
open Streams

abbrev Bytes := List UInt8

/-! `Buffer.toString()`: UTF-8, with a replacement character for each part that is none. -/

/-- The bytes that a character still needs, the range of the next one, and the bits so far. -/
structure Utf8State where
  needed : Nat
  low : Nat
  high : Nat
  bits : Nat

def Utf8State.start : Utf8State := ⟨0, 0x80, 0xBF, 0⟩

def replacement : Char := Char.ofNat 0xFFFD

/-- What the first byte of a character says. -/
def firstByte (b : Nat) : List Char × Utf8State :=
  if b < 0x80 then ([Char.ofNat b], .start)
  else if 0xC2 ≤ b ∧ b ≤ 0xDF then ([], ⟨1, 0x80, 0xBF, b % 0x20⟩)
  else if 0xE0 ≤ b ∧ b ≤ 0xEF then
    ([], ⟨2, if b = 0xE0 then 0xA0 else 0x80, if b = 0xED then 0x9F else 0xBF, b % 0x10⟩)
  else if 0xF0 ≤ b ∧ b ≤ 0xF4 then
    ([], ⟨3, if b = 0xF0 then 0x90 else 0x80, if b = 0xF4 then 0x8F else 0xBF, b % 8⟩)
  else ([replacement], .start)

def nextByte (state : Utf8State) (b : Nat) : List Char × Utf8State :=
  if state.needed = 0 then firstByte b
  else if state.low ≤ b ∧ b ≤ state.high then
    let bits := state.bits * 0x40 + b % 0x40
    if state.needed = 1 then ([Char.ofNat bits], .start) else ([], ⟨state.needed - 1, 0x80, 0xBF, bits⟩)
  else
    let (text, next) := firstByte b
    (replacement :: text, next)

def decodeUtf8 (state : Utf8State) : Bytes → List Char
  | [] => if state.needed = 0 then [] else [replacement]
  | b :: rest =>
    let (text, next) := nextByte state b.toNat
    text ++ decodeUtf8 next rest

def toText (bytes : Bytes) : List Char := decodeUtf8 .start bytes

/-- `text.split('\r\n')` -/
def splitLines : List Char → List (List Char)
  | [] => [[]]
  | '\r' :: '\n' :: rest => [] :: splitLines rest
  | c :: rest =>
    match splitLines rest with
    | [] => [[c]]
    | line :: lines => (c :: line) :: lines

/-- `'\r\n\r\n'` -/
def headersEnd : Bytes := [0x0D, 0x0A, 0x0D, 0x0A]

/-- `headers[name] = value` on a plain object, whose `__proto__` only an object can replace. -/
def assign (headers : List (List Char × List Char)) (name value : List Char) : List (List Char × List Char) :=
  if name = "__proto__".toList then headers
  else if headers.any (·.1 = name) then headers.map fun h => if h.1 = name then (name, value) else h
  else headers ++ [(name, value)]

inductive CgiError where
  | incompleteHeaders
  deriving DecidableEq

/-- `'Réponse CGI sans en-têtes complets'` -/
def CgiError.message : CgiError → String
  | .incompleteHeaders => "Réponse CGI sans en-têtes complets"

/-- A status that is no number is none; the body is its chunks. -/
structure CgiResponse where
  status : Option JsNumber
  headers : List (List Char × List Char)
  body : List Bytes

section
variable (toLowerCase : List Char → List Char)

/-- A line without a colon loses its last character as a name, and is its own value. -/
def readLine (read : Option JsNumber × List (List Char × List Char)) (line : List Char) :
    Option JsNumber × List (List Char × List Char) :=
  let (name, value) := match line.idxOf? ':' with
    | some colon => (line.take colon, line.drop (colon + 1))
    | none => (line.dropLast, line)
  let name := toLowerCase name
  let value := trim value
  if name = "status".toList then (Js.parseInt value, read.2) else (read.1, assign read.2 name value)

def readHeaders (head : Bytes) : Option JsNumber × List (List Char × List Char) :=
  (splitLines (toText head)).foldl (readLine toLowerCase) (some ((200 : ℚ) : JsNumber), [])

/-- The chunks are those of the stream, which ends after them. -/
def parseCgiResponse (chunks : List Bytes) : Except CgiError CgiResponse :=
  match readUntil headersEnd [] chunks with
  | none => .error .incompleteHeaders
  | some (stop, buffer, rest) =>
    let (status, headers) := readHeaders toLowerCase (buffer.take stop)
    .ok ⟨status, headers, buffer.drop (stop + 4) :: rest⟩

end

variable {toLowerCase : List Char → List Char} {chunks : List Bytes} {response : CgiResponse}

/-- What is read depends on the bytes alone: where the headers end in the whole, and what they are. -/
theorem parse_of_indexOf (toLowerCase : List Char → List Char) {stop : Nat}
    (found : indexOf headersEnd chunks.flatten = some stop) :
    ∃ body : List Bytes, body.flatten = chunks.flatten.drop (stop + 4) ∧
      parseCgiResponse toLowerCase chunks = .ok ⟨(readHeaders toLowerCase (chunks.flatten.take stop)).1,
        (readHeaders toLowerCase (chunks.flatten.take stop)).2, body⟩ := by
  have same : (readUntil headersEnd [] chunks).map (·.1) = indexOf headersEnd ([] ++ chunks.flatten) := readUntil_eq rfl
  rw [List.nil_append, found] at same
  obtain ⟨⟨place, buffer, rest⟩, read, same⟩ := Option.map_eq_some_iff.mp same
  obtain rfl : stop = place := same.symm
  obtain ⟨inside, whole⟩ := readUntil_some read
  have long : stop + 4 ≤ buffer.length := by
    have split := congrArg List.length (indexOf_some inside).split
    have four : headersEnd.length = 4 := rfl
    simp only [List.length_append, List.length_take, List.length_drop, four] at split
    omega
  rw [List.nil_append] at whole
  refine ⟨buffer.drop (stop + 4) :: rest, ?_, ?_⟩
  · rw [List.flatten_cons, ← whole, List.drop_append_of_le_length long]
  · have head : chunks.flatten.take stop = buffer.take stop := by
      rw [← whole, List.take_append_of_le_length (by omega)]
    rw [head, parseCgiResponse, read]

theorem parse_of_none (absent : indexOf headersEnd chunks.flatten = none) :
    parseCgiResponse toLowerCase chunks = .error .incompleteHeaders := by
  have same : (readUntil headersEnd [] chunks).map (·.1) = indexOf headersEnd ([] ++ chunks.flatten) := readUntil_eq rfl
  rw [List.nil_append, absent, Option.map_eq_none_iff] at same
  rw [parseCgiResponse, same]

/-- However the output of the process is cut, the answer is that of the whole, with the bytes after the
first blank line as its body; without a blank line there is none. -/
theorem parse_chunks (toLowerCase : List Char → List Char) (chunks : List Bytes) :
    match parseCgiResponse toLowerCase chunks with
    | .ok response =>
      (∃ body, parseCgiResponse toLowerCase [chunks.flatten] = .ok { response with body := body }) ∧
        ∃ head, FirstAt headersEnd head response.body.flatten chunks.flatten
    | .error _ => ¬headersEnd <:+: chunks.flatten := by
  cases found : indexOf headersEnd chunks.flatten with
  | none =>
    rw [parse_of_none found]
    exact indexOf_none found
  | some stop =>
    have whole : indexOf headersEnd [chunks.flatten].flatten = some stop := by
      rw [List.flatten_singleton]
      exact found
    obtain ⟨body, rest, parsed⟩ := parse_of_indexOf toLowerCase found
    obtain ⟨uncut, -, parsed₁⟩ := parse_of_indexOf toLowerCase whole
    rw [List.flatten_singleton] at parsed₁
    rw [parsed, parsed₁]
    refine ⟨⟨uncut, rfl⟩, chunks.flatten.take stop, ?_⟩
    rw [rest]
    exact indexOf_some found

/-- `Content-Type: a`, cut inside the blank line. -/
example : ((parseCgiResponse (·.map Char.toLower) ["Content-Type: a\r\n".toUTF8.toList, [0x0D], [], [0x0A, 0x30], [0x31]]).toOption.map
    fun r => (r.headers, r.body)) = some ([("content-type".toList, "a".toList)], [[0x30], [0x31]]) := by decide +kernel

end Opale.Linux.Cgi
