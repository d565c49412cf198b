import Xrpc.Client.RpcClient
import Xrpc.Io.Socket

/-!
# 期限

`src/client/tcp_transport.cpp` の期限の計算を、`ResolveCallOptions` と同じ整数の幅で写す。
時刻は `steady_clock` のナノ秒、時限はミリ秒で、どちらも 64 ビットの符号付き整数であり、あふれは下位の 64 ビットに折り返す。
その上に、一回の `TcpTransport::Call` を、時刻とともに進む遷移系として置く。
-/

namespace Xrpc.Client
open Xrpc.Lib Xrpc.Protocol Xrpc.Io

/-! ## 期限の計算 -/

/-- 0 は時限がないことを表すので、期限があれば正の値を返す。ミリ秒への変換は 0 の方へ切り捨てる。 -/
def remainingTimeout (deadline : Option Int64) (now : Int64) : Int64 :=
  match deadline with
  | none => 0
  | some deadline =>
      let remaining := (deadline - now) / NANOS_PER_MILLI
      if remaining < 1 then 1 else remaining

def deadlineExpired (deadline : Option Int64) (now : Int64) : Bool :=
  match deadline with
  | none => false
  | some deadline => deadline ≤ now

structure Timeval where
  sec : Int64
  usec : Int64
  deriving DecidableEq

def toTimeval (timeout : Int64) : Timeval :=
  if timeout ≤ 0 then ⟨0, 0⟩
  else
    let seconds := timeout / 1000
    let micros := (timeout - seconds * 1000) * 1000
    if seconds = 0 ∧ micros = 0 then ⟨seconds, 1⟩ else ⟨seconds, micros⟩

/-- 時限のナノ秒。 -/
def Timeval.nanos (tv : Timeval) : Int := tv.sec.toInt * 1000000000 + tv.usec.toInt * 1000

/-! ## 時刻とともに進む `TcpTransport::Call` -/

/-- `polling` と `sending` は、待ち始めた時刻を持つ。`exceeded` は、その時刻に `DeadlineExceeded` で終わったことを、`finished` は、
それ以外の結果で終わったことを表す。 -/
inductive TimedPc where
  | resolve
  | encode
  | checkDeadline
  | computeTimeout
  | lockState (timeout : Int64)
  | connecting (timeout : Int64)
  | polling (timeout : Int64) (since : Int)
  | register
  | checkWrite
  | setSendTimeout
  | beforeSend (tv : Timeval)
  | sending (tv : Timeval) (since : Int)
  | retrying (tv : Timeval)
  | waiting
  | exceeded (status : Status) (time : Int)
  | finished
  deriving DecidableEq

/-- `DeadlineExceeded` の状態と時刻。 -/
def TimedPc.outcome : TimedPc → Option (Status × Int)
  | .exceeded status time => some (status, time)
  | _ => none

structure TimedConfig where
  defaultTimeout : Int64
  callTimeout : Int64

def TimedConfig.timeout (cfg : TimedConfig) : Int64 := effectiveTimeout cfg.defaultTimeout cfg.callTimeout

/-- `now` はナノ秒の時刻、`resolvedAt` は `ResolveCallOptions` が読んだ時刻である。 -/
structure TimedState where
  now : Int
  resolvedAt : Int
  deadline : Option Int64
  pc : TimedPc

namespace TimedState

/-- `steady_clock::now()` の読む値。 -/
def reading (s : TimedState) : Int64 := Int64.ofInt s.now

def goto (s : TimedState) (pc : TimedPc) : TimedState := { s with pc := pc }

/-- `DeadlineExceeded` で終わる。 -/
def exceed (s : TimedState) (status : Status) : TimedState := s.goto (.exceeded status s.now)

/-- `SetSendTimeout(fd, RemainingTimeout(options))`。 -/
def setSendTimeout (s : TimedState) : TimedState := s.goto (.beforeSend (toTimeval (remainingTimeout s.deadline s.reading)))

end TimedState

inductive TimedAct where
  | tick (elapsed : Nat)
  | resolve
  | encoded
  | checkDeadline
  | computeTimeout
  | alreadyConnected (timeout : Int64)
  | startConnect (timeout : Int64)
  | connectInterrupted (timeout : Int64)
  | connected (timeout : Int64)
  | inProgress (timeout : Int64)
  | pollTimedOut (timeout : Int64) (since : Int)
  | pollInterrupted (timeout : Int64) (since : Int)
  | pollReady (timeout : Int64) (since : Int)
  | registered
  | checkWrite
  | setSendTimeout
  | startSend (tv : Timeval)
  | sendTimedOut (tv : Timeval) (since : Int)
  | sendPartly (tv : Timeval) (since : Int)
  | sendDone (tv : Timeval) (since : Int)
  | retry (tv : Timeval)
  | waitTimedOut
  | finish

namespace TimedAct

/-- 時刻は 64 ビットのナノ秒で読める範囲で進む。`poll` と `SO_SNDTIMEO` は、渡された長さを待ち終えるまで時間切れにならない。負の
`poll` の時限と 0 の `SO_SNDTIMEO` は、時間切れにならない。`finish` は、`DeadlineExceeded` でない結果で終わる。 -/
def enabled (s : TimedState) : TimedAct → Prop
  | .tick elapsed => s.now + elapsed < 2 ^ 63
  | .resolve => s.pc = .resolve
  | .encoded => s.pc = .encode
  | .checkDeadline => s.pc = .checkDeadline
  | .computeTimeout => s.pc = .computeTimeout
  | .alreadyConnected timeout | .startConnect timeout => s.pc = .lockState timeout
  | .connectInterrupted timeout | .connected timeout => s.pc = .connecting timeout
  | .inProgress timeout => s.pc = .connecting timeout ∧ 0 < timeout
  | .pollTimedOut timeout since =>
      s.pc = .polling timeout since ∧ 0 ≤ Socket.pollTimeout timeout ∧
        since + (Socket.pollTimeout timeout).toInt * 1000000 ≤ s.now
  | .pollInterrupted timeout since | .pollReady timeout since => s.pc = .polling timeout since
  | .registered => s.pc = .register
  | .checkWrite => s.pc = .checkWrite
  | .setSendTimeout => s.pc = .setSendTimeout
  | .startSend tv => s.pc = .beforeSend tv
  | .sendTimedOut tv since => s.pc = .sending tv since ∧ tv ≠ ⟨0, 0⟩ ∧ since + tv.nanos ≤ s.now
  | .sendPartly tv since | .sendDone tv since => s.pc = .sending tv since
  | .retry tv => s.pc = .retrying tv
  | .waitTimedOut => s.pc = .waiting ∧ deadlineExpired s.deadline s.reading = true
  | .finish => s.pc ≠ .resolve ∧ s.pc.outcome = none

/-- 中断された `connect` と、一部だけ送った `send` は、やり直す。期限があれば、送り直す前に期限を確かめて時限を改める。 -/
def next (cfg : TimedConfig) (s : TimedState) : TimedAct → TimedState
  | .tick elapsed => { s with now := s.now + elapsed }
  | .resolve =>
      { s with
        resolvedAt := s.now
        deadline := resolveDeadline s.reading cfg.defaultTimeout cfg.callTimeout
        pc := .encode }
  | .encoded => s.goto .checkDeadline
  | .checkDeadline =>
      if deadlineExpired s.deadline s.reading then s.exceed deadlineExceededStatus else s.goto .computeTimeout
  | .computeTimeout => s.goto (.lockState (remainingTimeout s.deadline s.reading))
  | .alreadyConnected _ => s.goto .register
  | .startConnect timeout => s.goto (.connecting timeout)
  | .connectInterrupted timeout => s.goto (.connecting timeout)
  | .connected _ => s.goto .register
  | .inProgress timeout => s.goto (.polling timeout s.now)
  | .pollTimedOut _ _ => s.exceed ⟨.deadlineExceeded, text "connect timed out"⟩
  | .pollInterrupted timeout _ => s.goto (.connecting timeout)
  | .pollReady _ _ => s.goto .register
  | .registered => s.goto .checkWrite
  | .checkWrite =>
      if deadlineExpired s.deadline s.reading then s.exceed deadlineExceededStatus else s.goto .setSendTimeout
  | .setSendTimeout => s.setSendTimeout
  | .startSend tv => s.goto (.sending tv s.now)
  | .sendTimedOut _ _ => s.exceed (timeoutStatus (text "send"))
  | .sendPartly tv _ => s.goto (.retrying tv)
  | .sendDone _ _ => s.goto .waiting
  | .retry tv =>
      if s.deadline = none then s.goto (.beforeSend tv)
      else if deadlineExpired s.deadline s.reading then s.exceed (timeoutStatus (text "send"))
      else s.setSendTimeout
  | .waitTimedOut => s.exceed deadlineExceededStatus
  | .finish => s.goto .finished

end TimedAct

/-- ほかのスレッドが同じソケットの `SO_SNDTIMEO` を設定しない、一回の呼び出しの遷移系。最初の時刻は、負でなければ何でもよい。 -/
def timedCall (cfg : TimedConfig) : Machine TimedState TimedAct where
  init s := 0 ≤ s.now ∧ s.now < 2 ^ 63 ∧ s.pc = .resolve
  enabled := TimedAct.enabled
  next := TimedAct.next cfg

instance decidableTimedEnabled (s : TimedState) (a : TimedAct) : Decidable (a.enabled s) := by
  cases a <;> dsimp only [TimedAct.enabled] <;> infer_instance

instance (cfg : TimedConfig) (s : TimedState) (a : TimedAct) : Decidable ((timedCall cfg).enabled s a) :=
  decidableTimedEnabled s a

/-- 期限の和が 64 ビットに収まり、`poll` に渡す時限が 2^32 ミリ秒に満たない歩み。 -/
def TimedAct.Fits (cfg : TimedConfig) (s : TimedState) : TimedAct → Prop
  | .resolve => s.now + cfg.timeout.toInt * 1000000 < 2 ^ 63
  | .inProgress timeout => timeout.toInt < 2 ^ 32
  | _ => True

instance (cfg : TimedConfig) (s : TimedState) (a : TimedAct) : Decidable (a.Fits cfg s) := by
  cases a <;> dsimp only [TimedAct.Fits] <;> infer_instance

end Xrpc.Client
