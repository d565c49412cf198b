import Xrpc.Lib.Text
import Xrpc.Lib.Numerals
import Xrpc.Lib.Feed
import Xrpc.Protocol.Envelope

/-!
# Consul の HTTP クライアント

`src/naming/consul/consul_http_client.cpp` を写す。応答は、断片ごとに読む。
-/

namespace Xrpc.Naming
open Xrpc.Lib Xrpc.Protocol

/-! ## 文字列 -/

/-- C ロケールの `std::isspace`。 -/
def isSpace (b : UInt8) : Bool := b = 32 || (9 ≤ b && b ≤ 13)

def trim (value : Bytes) : Bytes := trimBy isSpace value

/-- C ロケールの `std::tolower`。 -/
def lowerByte (b : UInt8) : UInt8 := if 65 ≤ b ∧ b ≤ 90 then b + 32 else b

def toLower (value : Bytes) : Bytes := value.map lowerByte

def INT_MIN : Int := -2147483648

def INT_MAX : Int := 2147483647

/-- `size_t` の最大値。 -/
def SIZE_MAX : Nat := 18446744073709551615

/-- 二つの `ParsePort` に共通する本体。失敗の文言だけが異なる。 -/
def parsePortOr (message : String) (portText : Bytes) : Except Status UInt16 :=
  match fromChars 10 INT_MIN INT_MAX portText with
  | .value parsedPort [] =>
      if parsedPort ≤ 0 ∨ 65535 < parsedPort then .error ⟨.invalidArgument, text message⟩
      else .ok (UInt16.ofNat parsedPort.toNat)
  | _ => .error ⟨.invalidArgument, text message⟩

/-- `size_t` へ、終わりまで読む。 -/
def parseSizeOr (base : Nat) (message : String) (value : Bytes) : Except Status Nat :=
  match fromChars base 0 SIZE_MAX value with
  | .value size [] => .ok size.toNat
  | _ => .error ⟨.dataLoss, text message⟩

def parseContentLength (value : Bytes) : Except Status Nat := parseSizeOr 10 "invalid Content-Length header" value

/-- `;` から後の拡張は読まない。 -/
def parseChunkSize (line : Bytes) : Except Status Nat :=
  let line := match findPattern [59] line with
    | some semicolon => line.take semicolon
    | none => line
  parseSizeOr 16 "invalid chunk size" (trim line)

/-! ## 接続先 -/

structure ConsulHttpClient where
  host : Bytes
  port : UInt16
  deriving DecidableEq

def ConsulHttpClient.create (address : Bytes) : Except Status ConsulHttpClient :=
  match rfind 58 address with
  | none => .error ⟨.invalidArgument, text "consul_address must be host:port"⟩
  | some colon =>
      if colon = 0 ∨ address.length ≤ colon + 1 then
        .error ⟨.invalidArgument, text "consul_address must be host:port"⟩
      else
        match parsePortOr "invalid consul address port" (address.drop (colon + 1)) with
        | .error status => .error status
        | .ok port => .ok ⟨address.take colon, port⟩

/-! ## 断片ごとの読み込み -/

/-- `Socket::Read` の返すもの。失敗には、時間切れも含む。 -/
abbrev Incoming := Feed UInt8 Status

def eofStatus : Status := ⟨.unavailable, text "unexpected EOF while reading HTTP response"⟩

def CRLF : Bytes := [13, 10]

/-- バッファが `n` バイト以上である。 -/
def atLeast (n : Nat) (buffer : Bytes) : Option Unit := if n ≤ buffer.length then some () else none

/-- 終わりまで読む。空の断片は、終わりである。 -/
def readUntilClose : Incoming → Bytes → Except Status Bytes
  | .eof, buffer => .ok buffer
  | .failed status, _ => .error status
  | .chunk received socket, buffer =>
      if received.isEmpty then .ok buffer else readUntilClose socket (buffer ++ received)

def readContentLengthBody (socket : Incoming) (buffer : Bytes) (contentLength : Nat) : Except Status Bytes :=
  match socket.readUntil eofStatus (atLeast contentLength) buffer with
  | .error status => .error status
  | .ok (_, buffer, _) => .ok (buffer.take contentLength)

/-- 大きさが 0 の断片で終わる。その後に続くものは読まない。 -/
def readChunkedBody (socket : Incoming) (buffer body : Bytes) : Except Status Bytes :=
  match _hline : socket.readUntil eofStatus (findPattern CRLF) buffer with
  | .error status => .error status
  | .ok (lineEnd, buffer₁, socket₁) =>
      match parseChunkSize (buffer₁.take lineEnd) with
      | .error status => .error status
      | .ok chunkSize =>
          if chunkSize = 0 then .ok body
          else if SIZE_MAX - 2 < chunkSize then .error ⟨.dataLoss, text "chunk size exceeds addressable range"⟩
          else
            match _hdata : socket₁.readUntil eofStatus (atLeast (chunkSize + 2)) (buffer₁.drop (lineEnd + 2)) with
            | .error status => .error status
            | .ok (_, buffer₂, socket₂) =>
                if (buffer₂.drop chunkSize).take 2 ≠ CRLF then .error ⟨.dataLoss, text "invalid chunk terminator"⟩
                else readChunkedBody socket₂ (buffer₂.drop (chunkSize + 2)) (body ++ buffer₂.take chunkSize)
termination_by buffer.length + socket.data.length
decreasing_by
  have hline := Feed.readUntil_length _hline
  have hdata := Feed.readUntil_length _hdata
  have hle : lineEnd + 2 ≤ buffer₁.length := findPattern_le (Feed.readUntil_eq_ok _hline).1
  simp only [List.length_drop] at hdata ⊢
  omega

/-! ## 先頭部 -/

abbrev Headers := List (Bytes × Bytes)

/-- `std::map::emplace`。同じ名前があれば、加えない。 -/
def Headers.emplace (headers : Headers) (name value : Bytes) : Headers :=
  match headers.lookup name with
  | some _ => headers
  | none => headers ++ [(name, value)]

/-- `:` のない行は読み飛ばす。 -/
def parseHeaderLine (headers : Headers) (line : Bytes) : Headers :=
  match findPattern [58] line with
  | none => headers
  | some colon => headers.emplace (toLower (trim (line.take colon))) (trim (line.drop (colon + 1)))

/-- `rest` は、`header_block` の `line_start` から後である。 -/
def parseHeaderLines (rest : Bytes) (headers : Headers) : Headers :=
  if rest.isEmpty then headers
  else
    match _h : findPattern CRLF rest with
    | none => parseHeaderLine headers rest
    | some lineEnd => parseHeaderLines (rest.drop (lineEnd + 2)) (parseHeaderLine headers (rest.take lineEnd))
termination_by rest.length
decreasing_by
  have hle : lineEnd + 2 ≤ rest.length := findPattern_le _h
  simp only [List.length_drop]
  omega

/-- 二つの空白の間を、状態の番号として読む。番号の後に何か続いていてもよい。 -/
def parseStatusLine (statusLine : Bytes) : Except Status Int :=
  match findPattern [32] statusLine with
  | none => .error ⟨.dataLoss, text "invalid HTTP status line"⟩
  | some firstSpace =>
      match findPattern [32] (statusLine.drop (firstSpace + 1)) with
      | none => .error ⟨.dataLoss, text "invalid HTTP status line"⟩
      | some length =>
          match fromChars 10 INT_MIN INT_MAX ((statusLine.drop (firstSpace + 1)).take length) with
          | .value statusCode _ => .ok statusCode
          | _ => .error ⟨.dataLoss, text "invalid HTTP status code"⟩

def parseHeaderBlock (headerBlock : Bytes) : Except Status (Int × Headers) :=
  match findPattern CRLF headerBlock with
  | none => (parseStatusLine headerBlock).map fun statusCode => (statusCode, [])
  | some statusLineEnd =>
      (parseStatusLine (headerBlock.take statusLineEnd)).map fun statusCode =>
        (statusCode, parseHeaderLines (headerBlock.drop (statusLineEnd + 2)) [])

/-! ## 要求と応答 -/

structure ConsulHttpResponse where
  statusCode : Int
  headers : Headers
  body : Bytes
  deriving DecidableEq

/-- `Transfer-Encoding` は `Content-Length` に優先する。どちらもなければ、接続が閉じるまでが本体である。 -/
def readBody (socket : Incoming) (headers : Headers) (bodyBuffer : Bytes) : Except Status Bytes :=
  match headers.lookup (text "transfer-encoding") with
  | some transferEncoding =>
      match findPattern (text "chunked") (toLower transferEncoding) with
      | some _ => readChunkedBody socket bodyBuffer []
      | none => readUntilClose socket bodyBuffer
  | none =>
      match headers.lookup (text "content-length") with
      | some value =>
          match parseContentLength value with
          | .error status => .error status
          | .ok contentLength => readContentLengthBody socket bodyBuffer contentLength
      | none => readUntilClose socket bodyBuffer

/-- 先頭部を終わりまで読み、本体を読む。最初に必ず一回読む。 -/
def readResponse (socket : Incoming) : Except Status ConsulHttpResponse :=
  match socket.readMore eofStatus [] with
  | .error status => .error status
  | .ok (buffer, socket) =>
      match socket.readUntil eofStatus (findPattern (CRLF ++ CRLF)) buffer with
      | .error status => .error status
      | .ok (headerEnd, buffer, socket) =>
          match parseHeaderBlock (buffer.take headerEnd) with
          | .error status => .error status
          | .ok (statusCode, headers) =>
              (readBody socket headers (buffer.drop (headerEnd + 4))).map fun body => ⟨statusCode, headers, body⟩

namespace ConsulHttpClient

def request (client : ConsulHttpClient) (method path body : Bytes) : Bytes :=
  method ++ text " " ++ path ++ text " HTTP/1.1\r\nHost: " ++ client.host ++ text ":" ++ toDecimal client.port.toNat ++
    text "\r\nConnection: close\r\nAccept: application/json\r\nContent-Length: " ++ toDecimal body.length ++
    text "\r\n\r\n" ++ body

/-- ソケットの答え。`incoming` は、書いた要求への応答である。 -/
structure Exchange where
  connect : Status := {}
  setReadWriteTimeout : Status := {}
  writeAll : Bytes → Status := fun _ => {}
  incoming : Bytes → Incoming

def sendRequest (client : ConsulHttpClient) (socket : Exchange) (method path body : Bytes) :
    Except Status ConsulHttpResponse :=
  if !socket.connect.isOk then .error socket.connect
  else if !socket.setReadWriteTimeout.isOk then .error socket.setReadWriteTimeout
  else
    let request := client.request method path body
    if !(socket.writeAll request).isOk then .error (socket.writeAll request)
    else readResponse (socket.incoming request)

def get (client : ConsulHttpClient) (socket : Exchange) (path : Bytes) : Except Status ConsulHttpResponse :=
  client.sendRequest socket (text "GET") path []

def put (client : ConsulHttpClient) (socket : Exchange) (path body : Bytes) : Except Status ConsulHttpResponse :=
  client.sendRequest socket (text "PUT") path body

end ConsulHttpClient

/-! ## 応答の書き方 -/

/-- 空白だけの列。 -/
def Blank (ws : Bytes) : Prop := ∀ b ∈ ws, isSpace b = true

instance (ws : Bytes) : Decidable (Blank ws) := decidable_of_iff (ws.all isSpace = true) List.all_eq_true

/-- 先頭部の一行。値の両側に空白があってよい。 -/
structure HeaderField where
  name : Bytes
  leading : Bytes
  value : Bytes
  trailing : Bytes

namespace HeaderField

def line (f : HeaderField) : Bytes := f.name ++ 58 :: (f.leading ++ (f.value ++ f.trailing))

structure Wf (f : HeaderField) : Prop where
  name_colon : 58 ∉ f.name
  name_trimmed : Trimmed isSpace f.name
  leading_blank : Blank f.leading
  value_trimmed : Trimmed isSpace f.value
  trailing_blank : Blank f.trailing
  line_cr : 13 ∉ f.line

end HeaderField

/-- 先頭部。 -/
structure Head where
  version : Bytes
  code : Bytes
  reason : Bytes
  fields : List HeaderField

namespace Head

def statusLine (h : Head) : Bytes := h.version ++ 32 :: (h.code ++ 32 :: h.reason)

/-- 空の行の前まで。 -/
def block (h : Head) : Bytes := h.statusLine ++ h.fields.flatMap fun f => CRLF ++ f.line

structure Wf (h : Head) : Prop where
  version_space : 32 ∉ h.version
  code_numeral : Numeral 10 h.code
  code_le : (digitsValue 10 h.code : Int) ≤ INT_MAX
  status_cr : 13 ∉ h.statusLine
  fields_wf : ∀ f ∈ h.fields, f.Wf

/-- 同じ名前の行のうち、最初のものの値。名前の大文字と小文字は区別しない。 -/
def value (h : Head) (name : String) : Option Bytes := (h.fields.find? fun f => toLower f.name = text name).map (·.value)

/-- 名前を小文字にした、重なりのない一覧。 -/
def headers (h : Head) : Headers := h.fields.foldl (fun headers f => headers.emplace (toLower f.name) f.value) []

end Head

/-- 断片の大きさの後に続く拡張。改行を含まない。 -/
def ChunkExtension (extension : Bytes) : Prop :=
  (extension = [] ∨ ∃ ws rest, Blank ws ∧ extension = ws ++ 59 :: rest) ∧ ¬ CRLF <:+: extension

/-- 断片に分けた本体。大きさは十六進で、先頭に 0 が続いてもよく、大きさが 0 の断片の後には何が続いてもよい。断片は、番地を付けられる長さである。 -/
inductive ChunkedAs : Bytes → Bytes → Prop where
  | last {size extension : Bytes} (trailer : Bytes) : Numeral 16 size → digitsValue 16 size = 0 →
      ChunkExtension extension → ChunkedAs (size ++ (extension ++ (CRLF ++ trailer))) []
  | chunk {size extension data stream body : Bytes} : Numeral 16 size → digitsValue 16 size = data.length → data ≠ [] →
      data.length ≤ SIZE_MAX - 2 → ChunkExtension extension → ChunkedAs stream body →
      ChunkedAs (size ++ (extension ++ (CRLF ++ (data ++ (CRLF ++ stream))))) (data ++ body)

/-- 先頭部の後に続く列が、本体を表す。 -/
inductive Head.Frames (h : Head) : Bytes → Bytes → Prop where
  | chunked {coding stream body : Bytes} : h.value "transfer-encoding" = some coding →
      text "chunked" <:+: toLower coding → ChunkedAs stream body → h.Frames stream body
  | contentLength {length body : Bytes} (surplus : Bytes) : h.value "transfer-encoding" = none →
      h.value "content-length" = some length → Numeral 10 length → digitsValue 10 length = body.length →
      body.length ≤ SIZE_MAX → h.Frames (body ++ surplus) body
  | close {body : Bytes} : h.value "transfer-encoding" = none → h.value "content-length" = none → h.Frames body body
  | closeCoded {coding body : Bytes} : h.value "transfer-encoding" = some coding →
      ¬ text "chunked" <:+: toLower coding → h.Frames body body

end Xrpc.Naming
