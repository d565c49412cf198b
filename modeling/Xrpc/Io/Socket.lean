import Xrpc.Client.CallAttempt

/-!
# TCP の接続

`src/io/socket.cpp` の `Socket::Connect` を、カーネルの答えの列の上の関数として写す。答えの列が尽きれば、まだ返っていない。
-/

namespace Xrpc.Io
open Xrpc.Lib Xrpc.Protocol Xrpc.Client

/-! ## 失敗の種別 -/

inductive SocketErrorCode where
  | invalidAddress
  | createFailed
  | bindFailed
  | listenFailed
  | acceptFailed
  | connectFailed
  | connectTimeout
  | readFailed
  | readTimeout
  | writeFailed
  | writeTimeout
  | configureFailed
  | shutdownFailed
  | peerClosed
  deriving DecidableEq, Repr

def SocketErrorCode.toStatusCode : SocketErrorCode → StatusCode
  | .connectTimeout | .readTimeout | .writeTimeout => .deadlineExceeded
  | .invalidAddress => .invalidArgument
  | _ => .unavailable

def makeSocketStatus (env : Env) (code : SocketErrorCode) (action : Bytes) (error : Errno) : Status :=
  ⟨code.toStatusCode, makeSystemErrorMessage env action error⟩

/-! ## カーネルの答え -/

def EISCONN : Errno := 106
def EALREADY : Errno := 114
def EINPROGRESS : Errno := 115

def O_NONBLOCK : Nat := 0x800

/-- `poll` と、それに続く `getsockopt(SO_ERROR)` への答え。 -/
inductive PollAnswer where
  | timedOut
  | failed (errno : Errno)
  | ready (socketError : Except Errno Errno)

/-- 一回の `connect` への答え。`EINPROGRESS` には `poll` が続くので、渡された時限から定まるその答えとともに、別に置く。 -/
inductive ConnectAnswer where
  | connected
  | inProgress (poll : Int32 → PollAnswer)
  | failed (errno : Errno)

def ConnectAnswer.errno : ConnectAnswer → Option Errno
  | .connected => none
  | .inProgress _ => some EINPROGRESS
  | .failed errno => some errno

/-- 開いている記述子と、その旗。 -/
abbrev Descriptor := Fd × Nat

/-- 一回の `Connect` の間の、カーネルと C ライブラリの答え。旗を変える呼び出しの `none` は成功である。 -/
structure ConnectKernel where
  socket : Except Errno Descriptor
  addressValid : Bool := true
  getFlagsFailure : Option Errno := none
  setNonblockFailure : Option Errno := none
  answers : List ConnectAnswer
  restoreFailure : Option Errno := none

/-- 返した状態と、`fd_` の指す記述子。`none` は無効なソケットである。 -/
structure ConnectOutcome where
  status : Status
  descriptor : Option Descriptor

/-! ## `Socket::Connect` -/

namespace Socket

variable (env : Env) (kernel : ConnectKernel)

/-- `poll` に渡す時限。`int` への変換は、下位の 32 ビットを取る。 -/
def pollTimeout (timeout : Int64) : Int32 := timeout.toInt32

/-- `Close` の後に、失敗を返す。 -/
def closeAndFail (code : SocketErrorCode) (action : String) (error : Errno) : ConnectOutcome :=
  ⟨makeSocketStatus env code (text action) error, none⟩

/-- 戻せなかったときも、記述子は閉じない。 -/
def restoreSocketFlags (fd : Fd) (flags : Nat) : ConnectOutcome :=
  match kernel.restoreFailure with
  | none => ⟨{}, some (fd, flags)⟩
  | some errno => ⟨makeSocketStatus env .configureFailed (text "fcntl(F_SETFL)") errno, some (fd, flags ||| O_NONBLOCK)⟩

/-- 時限のない `connect` の繰り返し。 -/
def blockingConnect (fd : Fd) (flags : Nat) : List ConnectAnswer → Option ConnectOutcome
  | [] => none
  | answer :: answers =>
      match answer.errno with
      | none => some ⟨{}, some (fd, flags)⟩
      | some errno =>
          if errno = EINTR then blockingConnect fd flags answers
          else some (closeAndFail env .connectFailed "connect" errno)

/-- 時限のある `connect` と `poll` の繰り返し。どちらが中断されても、`connect` からやり直し、`poll` には時限の全体を渡し直す。 -/
def timedConnect (timeout : Int64) (fd : Fd) (flags : Nat) : List ConnectAnswer → Option ConnectOutcome
  | [] => none
  | .connected :: _ => some (restoreSocketFlags env kernel fd flags)
  | .failed errno :: answers =>
      if errno = EINTR then timedConnect timeout fd flags answers
      else some (closeAndFail env .connectFailed "connect" errno)
  | .inProgress poll :: answers =>
      match poll (pollTimeout timeout) with
      | .timedOut => some ⟨⟨.deadlineExceeded, text "connect timed out"⟩, none⟩
      | .failed errno =>
          if errno = EINTR then timedConnect timeout fd flags answers
          else some (closeAndFail env .connectFailed "poll" errno)
      | .ready (.error errno) => some (closeAndFail env .connectFailed "getsockopt(SO_ERROR)" errno)
      | .ready (.ok socketError) =>
          if socketError = 0 then some (restoreSocketFlags env kernel fd flags)
          else some (closeAndFail env .connectFailed "connect" socketError)

/-- 記述子が開いた後の `Connect`。 -/
def connectOpened (timeout : Int64) (fd : Fd) (flags : Nat) : Option ConnectOutcome :=
  if !kernel.addressValid then some ⟨⟨.invalidArgument, text "invalid host address"⟩, none⟩
  else if timeout ≤ 0 then blockingConnect env fd flags kernel.answers
  else
    match kernel.getFlagsFailure, kernel.setNonblockFailure with
    | some errno, _ => some (closeAndFail env .configureFailed "fcntl(F_GETFL)" errno)
    | none, some errno => some (closeAndFail env .configureFailed "fcntl(F_SETFL)" errno)
    | none, none => timedConnect env kernel timeout fd flags kernel.answers

def connect (timeout : Int64) (descriptor : Option Descriptor) : Option ConnectOutcome :=
  match descriptor with
  | some (fd, flags) => connectOpened env kernel timeout fd flags
  | none =>
      match kernel.socket with
      | .error errno => some ⟨makeSocketStatus env .createFailed (text "socket") errno, none⟩
      | .ok (fd, flags) => connectOpened env kernel timeout fd flags

end Socket

/-! ## 接続が成り立つときのカーネル -/

inductive Handshake where
  | idle
  | pending
  | established

/-- 時刻 `established` に接続が成り立つときの、時刻 `now` からの答えの列。`connect` と `poll` は何度でも中断される。時限 `limit` の
`poll` は、時限が負であるか、時限までに接続が成り立てば書き込めることを告げ、そうでなければ時間切れを告げる。`EINPROGRESS` の後の
`connect` は、成り立つまでは `EALREADY` を、成り立った後は 0 か `EISCONN` を答える。時刻の単位はミリ秒である。 -/
inductive Establishes (limit : Int32) (established : Nat) : Nat → Handshake → List ConnectAnswer → Prop where
  | interrupted {now later handshake answers} : now ≤ later → Establishes limit established later handshake answers →
      Establishes limit established now handshake (.failed EINTR :: answers)
  | connected {now} : Establishes limit established now .idle [.connected]
  | polled {now : Nat} {poll} : poll limit = .ready (.ok 0) → limit < 0 ∨ (established : Int) ≤ now + limit.toInt →
      Establishes limit established now .idle [.inProgress poll]
  | pollTimedOut {now : Nat} {poll} : poll limit = .timedOut → 0 ≤ limit → now + limit.toInt ≤ established →
      Establishes limit established now .idle [.inProgress poll]
  | pollInterrupted {now later poll answers} : poll limit = .failed EINTR → now ≤ later →
      Establishes limit established later .pending answers →
      Establishes limit established now .idle (.inProgress poll :: answers)
  | already {now later answers} : now < established → now ≤ later → Establishes limit established later .pending answers →
      Establishes limit established now .pending (.failed EALREADY :: answers)
  | completed {now answers} : established ≤ now → Establishes limit established now .established answers →
      Establishes limit established now .pending answers
  | zero {now} : Establishes limit established now .established [.connected]
  | isConnected {now} : Establishes limit established now .established [.failed EISCONN]

/-- `poll` の時間切れ。 -/
def ConnectAnswer.TimesOut (limit : Int32) : ConnectAnswer → Prop
  | .inProgress poll => poll limit = .timedOut
  | _ => False

end Xrpc.Io
