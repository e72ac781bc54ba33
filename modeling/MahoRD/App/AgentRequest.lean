/-
MahoRD/App/AgentRequest.lean

How a request of the agent's HTTP server is read from its connection and taken apart
(`read_request` and the beginning of `handle_connection` in
`maho-app/src/agent_server.rs`).

A stream is its bytes and how it ends.  It arrives in reads, none of them empty; what does
not fit into the buffer is not looked at again.  Strings are the bytes of their characters.
-/
import MahoRD.Lib.Search
import MahoRD.Lib.Utf8
import Mathlib.Data.List.TakeWhile
import Mathlib.Algebra.GroupWithZero.Nat

namespace MahoRD.Agent

/-- A string: the bytes of each character. -/
abbrev Text := List (List UInt8)

def ascii (s : String) : List UInt8 := s.toList.map fun c => c.toNat.toUInt8

namespace Text

def newline : List UInt8 := [0x0a]
def carriageReturn : List UInt8 := [0x0d]

/-- The characters with the property `White_Space`. -/
def isWhitespace (c : List UInt8) : Bool :=
  ([[0x09], [0x0a], [0x0b], [0x0c], [0x0d], [0x20], [0xC2, 0x85], [0xC2, 0xA0],
    [0xE1, 0x9A, 0x80], [0xE2, 0x80, 0xA8], [0xE2, 0x80, 0xA9], [0xE2, 0x80, 0xAF],
    [0xE2, 0x81, 0x9F], [0xE3, 0x80, 0x80]] : List (List UInt8)).contains c ||
  (([0x80, 0x81, 0x82, 0x83, 0x84, 0x85, 0x86, 0x87, 0x88, 0x89, 0x8A] : List UInt8).map
    fun b => [0xE2, 0x80, b]).contains c

def trim (t : Text) : Text :=
  ((t.dropWhile isWhitespace).reverse.dropWhile isWhitespace).reverse

def stripCarriageReturn (line : Text) : Text :=
  if line.getLast? = some carriageReturn then line.dropLast else line

/-- The lines from the beginning of one on.  A last line that is empty is none. -/
def linesFrom (line : Text) : Text → List Text
  | [] => if line = [] then [] else [line]
  | c :: cs =>
    if c = newline then stripCarriageReturn line :: linesFrom [] cs else linesFrom (line ++ [c]) cs

def lines (t : Text) : List Text := linesFrom [] t

def splitOnce (separator : List UInt8) : Text → Option (Text × Text)
  | [] => none
  | c :: cs =>
    if c = separator then some ([], cs)
    else (splitOnce separator cs).map fun (before, after) => (c :: before, after)

/-- The words from the beginning of one on. -/
def wordsFrom (word : Text) : Text → List Text
  | [] => if word = [] then [] else [word]
  | c :: cs =>
    if isWhitespace c then (if word = [] then [] else [word]) ++ wordsFrom [] cs
    else wordsFrom (word ++ [c]) cs

def splitWhitespace (t : Text) : List Text := wordsFrom [] t

def toAsciiLowercase (b : UInt8) : UInt8 := if 0x41 ≤ b ∧ b ≤ 0x5A then b + 0x20 else b

def eqIgnoreAsciiCase (t : Text) (s : String) : Bool :=
  t.flatten.map toAsciiLowercase = (ascii s).map toAsciiLowercase

def isAsciiDigit (b : UInt8) : Bool := 0x30 ≤ b ∧ b ≤ 0x39

/-- `parse::<usize>`, of digits. -/
def parseUsize (t : Text) : Option ℕ :=
  let n := t.flatten.foldl (fun n b => 10 * n + (b.toNat - 0x30)) 0
  if n < 2 ^ 64 then some n else none

end Text

inductive ErrorKind
  | invalidInput | timedOut | invalidData | unexpectedEof
  /-- The kinds of errors of the connection itself. -/
  | other

inductive RequestError
  | tooLarge | timedOut | incomplete | invalidUtf8 | invalidHeader | transferEncoding
  | contentLength | contentLengthRange
  /-- The connection failed. -/
  | failed

namespace RequestError

def kind : RequestError → ErrorKind
  | tooLarge | contentLengthRange => .invalidInput
  | timedOut => .timedOut
  | incomplete => .unexpectedEof
  | invalidUtf8 | invalidHeader | transferEncoding | contentLength => .invalidData
  | failed => .other

/-- The text, unless it is the standard library's. -/
def text : RequestError → Option String
  | tooLarge => some "request too large"
  | incomplete => some "incomplete request"
  | invalidHeader => some "invalid header"
  | transferEncoding => some "unsupported transfer encoding"
  | contentLength => some "invalid content length"
  | timedOut | invalidUtf8 | contentLengthRange | failed => none

end RequestError

def bufferLen : ℕ := 65536

def crlfcrlf : List UInt8 := [0x0d, 0x0a, 0x0d, 0x0a]
def lflf : List UInt8 := [0x0a, 0x0a]

/-- Where the headers end, and the length of what ends them. -/
def delimiter (bytes : List UInt8) : Option (ℕ × ℕ) :=
  match Search.find crlfcrlf bytes with
  | some i => some (i, 4)
  | none => (Search.find lflf bytes).map fun i => (i, 2)

/-- One line of the headers, after those that gave the content length so far. -/
def scanHeader (contentLength : Option ℕ) (line : Text) : Except RequestError (Option ℕ) :=
  match line.splitOnce (ascii ":") with
  | none => .error .invalidHeader
  | some (name, value) =>
    if name.eqIgnoreAsciiCase "transfer-encoding" then .error .transferEncoding
    else if name.eqIgnoreAsciiCase "content-length" then
      let value := value.trim
      if contentLength.isSome || value.isEmpty || !value.flatten.all Text.isAsciiDigit then
        .error .contentLength
      else
        match value.parseUsize with
        | some n => .ok (some n)
        | none => .error .contentLengthRange
    else .ok contentLength

def scanHeaders (contentLength : Option ℕ) : List Text → Except RequestError (Option ℕ)
  | [] => .ok contentLength
  | line :: lines =>
    match scanHeader contentLength line with
    | .ok contentLength => scanHeaders contentLength lines
    | .error e => .error e

/-- The length of the body, which the headers give. -/
def bodyLength (headers : List UInt8) : Except RequestError ℕ :=
  match Utf8.fromUtf8 headers with
  | none => .error .invalidUtf8
  | some text => (scanHeaders none ((Text.lines text).drop 1)).map (·.getD 0)

structure Head where
  headerEnd : ℕ
  delimiterLen : ℕ
  length : ℕ

namespace Head

def bodyStart (h : Head) : ℕ := h.headerEnd + h.delimiterLen

def total (h : Head) : ℕ := h.bodyStart + h.length

end Head

/-- What has arrived, searched for the end of the headers. -/
def readHead (arrived : List UInt8) : Except RequestError (Option Head) :=
  match delimiter arrived with
  | none => .ok none
  | some (headerEnd, delimiterLen) =>
    match bodyLength (arrived.take headerEnd) with
    | .ok length =>
      if length > bufferLen - (headerEnd + delimiterLen) then .error .tooLarge
      else .ok (some ⟨headerEnd, delimiterLen, length⟩)
    | .error e => .error e

/-- How a stream ends. -/
inductive StreamEnd
  | closed | timedOut | failed

/-- No more bytes arrive. -/
def StreamEnd.answer (ending : StreamEnd) (used : List UInt8) :
    Except RequestError (List UInt8 × Option Head) :=
  match ending with
  | .closed => if used = [] then .ok ([], none) else .error .incomplete
  | .timedOut => .error .timedOut
  | .failed => .error .failed

/-- The checks at the top of the loop: the request is complete, or the buffer is full. -/
def finished (used : List UInt8) (head : Option Head) :
    Option (Except RequestError (List UInt8 × Option Head)) :=
  match head.filter (·.total ≤ used.length) with
  | some head => some (.ok (used.take head.total, some head))
  | none => if used.length = bufferLen then some (.error .tooLarge) else none

/-- The loop of `read_request`: what has been read, and the head if it is complete. -/
def readLoop (ending : StreamEnd) (used : List UInt8) (head : Option Head)
    (reads : List (List UInt8)) : Except RequestError (List UInt8 × Option Head) :=
  match finished used head with
  | some answer => answer
  | none =>
    match reads with
    | [] => ending.answer used
    | read :: reads =>
      let used := used ++ read.take ((head.map Head.total).getD bufferLen - used.length)
      match head with
      | some head => readLoop ending used (some head) reads
      | none =>
        match readHead used with
        | .ok head => readLoop ending used head reads
        | .error e => .error e

def readRequest (ending : StreamEnd) (reads : List (List UInt8)) :
    Except RequestError (List UInt8 × Option Head) :=
  readLoop ending [] none reads

/-- What becomes of a connection once its request is read. -/
inductive Taken
  | closed
  | failed
  | answered (status : UInt16) (reason : String)
  | request (method path : Text) (headers body : List UInt8)
  | panicked
  deriving DecidableEq

/-- The response to an error, by its kind. -/
def respondError : ErrorKind → Taken
  | .invalidInput => .answered 413 "Payload Too Large"
  | .timedOut => .answered 408 "Request Timeout"
  | .invalidData | .unexpectedEof => .answered 400 "Bad Request"
  | .other => .failed

/-- The split into headers and body, by offsets into the string. -/
def takeApart (method path : Text) (buf : List UInt8) : Taken :=
  let requestStr := (Utf8.lossy buf).flatten
  match (Search.find crlfcrlf requestStr).or (Search.find lflf requestStr) with
  | some idx =>
    let offset := if crlfcrlf <+: requestStr.drop idx then idx + 4 else idx + 2
    if offset ≤ buf.length then .request method path (requestStr.take idx) (buf.drop offset)
    else .panicked
  | none => .request method path requestStr []

def handleConnection (result : Except RequestError (List UInt8)) : Taken :=
  match result with
  | .error e => respondError e.kind
  | .ok buf =>
    if buf = [] then .closed
    else
      match Text.lines (Utf8.lossy buf) with
      | [] => .closed
      | requestLine :: _ =>
        match requestLine.splitWhitespace with
        | method :: path :: _ => takeApart method path buf
        | _ => .answered 400 "Bad Request"

end MahoRD.Agent
