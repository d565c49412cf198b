import Xrpc.Server.ConnectionIoLoop
import Xrpc.Server.WorkerPool

/-!
# サーバーの起動と終了

`src/server/rpc_server_impl.cpp` の `Run`、`Stop`、`AcceptLoop`、`ShutdownComponents` を、作業の糸の集まりと入出力の繰り返しの上に
重ねる。接続の `SubmitRequestBatch` は集まりの `TrySubmitBatch` の一つの呼び出しと歩みを合わせ、作業の糸が走らせる仕事は、接続の束の
処理と歩みを合わせる。`DispatchAcceptedConnection` の選ぶ繰り返しは、どれでもよいものとする。
-/

namespace Xrpc.Server
open Xrpc.Lib Function

/-! ## 仕事の名前 -/

/-- 繰り返し `loop` の通し番号 `connection` の接続が提出した束。 -/
@[ext]
structure JobId (ℓ : Type) where
  loop : ℓ
  connection : Nat
  job : Job
  nonempty : job.requests ≠ []
  deriving DecidableEq

/-- サーバーの設定。 -/
structure ServerConfig (ℓ ω : Type) where
  connection : ServerConnectionConfig
  maxPendingJobs : Nat
  loops : List ℓ
  workers : List ω
  max_lt : maxPendingJobs < 2 ^ 64
  mem_loops : ∀ l, l ∈ loops
  mem_workers : ∀ w, w ∈ workers
  workers_nodup : workers.Nodup

def ServerConfig.pool {ℓ ω : Type} (cfg : ServerConfig ℓ ω) : WorkerPool.Config (JobId ℓ) ω where
  maxPendingJobs := cfg.maxPendingJobs
  logicalJobs i := i.job.requests.length
  workers := cfg.workers
  max_lt := cfg.max_lt
  logicalJobs_pos i := List.length_pos_of_ne_nil i.nonempty
  mem_workers := cfg.mem_workers
  workers_nodup := cfg.workers_nodup

/-! ## 状態 -/

/-- 受け付けを終える三つの呼び出し。`stop` は `RequestGracefulStop` の呼び戻しの `CloseSubmissions`、`shutdown` は
`ShutdownComponents` の `CloseSubmissions`、`drain` は `DrainAndJoin` である。 -/
inductive Closer where
  | stop
  | shutdown
  | drain
  deriving DecidableEq

/-- `Run` の糸の位置。`idle` は `Run` の前、`beginning` は `BeginConnectionDrain`、`joining` は `DrainAndJoin`、`finishing` から
`requesting` までは `FinishConnectionDrain` の中であり、`rest` はまだ扱っていない繰り返しである。 -/
inductive RunPc (ℓ : Type) where
  | idle
  | starting (rest : List ℓ)
  | accepting
  | stopping
  | closing
  | beginning (rest : List ℓ)
  | joining
  | finishing (rest : List ℓ)
  | waiting (l : ℓ) (rest : List ℓ)
  | requesting (l : ℓ) (rest : List ℓ)
  | completed
  deriving DecidableEq

/-- `BeginDrain` を呼ぶところ。`FinishDrain` も呼ぶ。 -/
def RunPc.beginsDrain {ℓ : Type} (pc : RunPc ℓ) (l : ℓ) (rest : List ℓ) : Prop :=
  pc = .beginning (l :: rest) ∨ pc = .finishing (l :: rest)

instance {ℓ : Type} [DecidableEq ℓ] (pc : RunPc ℓ) (l : ℓ) (rest : List ℓ) : Decidable (pc.beginsDrain l rest) :=
  inferInstanceAs (Decidable (_ ∨ _))

/-- `BeginDrain` の後の位置。 -/
def RunPc.afterBeginDrain {ℓ : Type} (pc : RunPc ℓ) (l : ℓ) (rest : List ℓ) : RunPc ℓ :=
  match pc with
  | .beginning _ => .beginning rest
  | _ => .waiting l rest

/-- `stopCalled` は `Stop` が呼ばれたこと、`stopPosted` はその呼び戻しが待っていることを表す。`executed` は、処理した束の記録である。 -/
structure RpcServer (ℓ ω : Type) where
  pool : WorkerPool.State (JobId ℓ) ω Closer
  loops : ℓ → ConnectionIoLoop
  run : RunPc ℓ
  stopCalled : Bool
  stopPosted : Bool
  acceptStopped : Bool
  executed : List (JobId ℓ)

namespace RpcServer

variable {ℓ ω : Type} [DecidableEq ℓ] [DecidableEq ω] (cfg : ServerConfig ℓ ω)

def initial : RpcServer ℓ ω where
  pool := .initial
  loops _ := .initial cfg.connection
  run := .idle
  stopCalled := false
  stopPosted := false
  acceptStopped := false
  executed := []

/-- 束を提出した接続。 -/
def connection (s : RpcServer ℓ ω) (i : JobId ℓ) : ServerConnection := (s.loops i.loop).objects i.connection

/-! ## 動作 -/

/-- `pool` は `TrySubmitBatch`、`WorkerLoop`、`CloseSubmissions` の中の動作、`loop` は入出力の糸の動作である。`push` は束が列に
積まれるとき、`finishJob` は作業の糸が束の処理から戻るときである。`submitThrew` は、`TrySubmitBatch` か、その前の `make_shared` が
投げたときである。 -/
inductive Act (ℓ ω : Type) where
  | pool (a : WorkerPool.Act (JobId ℓ) ω Closer)
  | loop (l : ℓ) (a : ConnectionIoLoop.Act)
  | push (i : JobId ℓ) (w : ω)
  | countAdmitted (i : JobId ℓ) (recvRefused : Bool)
  | submitFull (i : JobId ℓ) (sendRefused recvRefused : Bool)
  | submitClosed (i : JobId ℓ)
  | submitThrew (i : JobId ℓ)
  | execute (w : ω) (i : JobId ℓ) (invoke : Request → Invocation)
  | post (w : ω) (i : JobId ℓ) (result : WorkerResult)
  | finishJob (w : ω) (i : JobId ℓ)
  | startConnectionLoops
  | startLoop (l : ℓ) (rest : List ℓ)
  | serve
  | startupFailed (rest : List ℓ)
  | stop
  | stopBeforeRun
  | dispatchAcceptedConnection (l : ℓ)
  | acceptFailed
  | closeSubmissions
  | stopAcceptingOnContext
  | completeShutdown
  | beginConnectionDrain
  | beginDrain (l : ℓ) (rest : List ℓ)
  | alreadyDraining (l : ℓ) (rest : List ℓ)
  | drainAndJoin
  | finishConnectionDrain
  | alreadyStopped (l : ℓ) (rest : List ℓ)
  | waited (l : ℓ) (rest : List ℓ)
  | requestStop (l : ℓ) (rest : List ℓ)
  | complete

/-- 動作が、集まりの側で起こすこと。 -/
def Act.inPool : Act ℓ ω → Option (WorkerPool.Act (JobId ℓ) ω Closer)
  | .pool a => some a
  | .push i w => some (.push i w)
  | .finishJob w i => some (.workerRun w i)
  | .closeSubmissions => some (.close .stop false)
  | .startupFailed _ | .stopBeforeRun | .completeShutdown => some (.close .shutdown false)
  | .drainAndJoin => some (.close .drain true)
  | _ => none

/-- 動作が、繰り返しの側で起こすこと。 -/
def Act.inLoop : Act ℓ ω → Option (ℓ × ConnectionIoLoop.Act)
  | .loop l a => some (l, a)
  | .push i _ => some (i.loop, .submitAccepted i.connection i.job.requests)
  | .countAdmitted i recvRefused => some (i.loop, .countAdmitted i.connection recvRefused i.job.requests.length)
  | .submitFull i sendRefused recvRefused =>
      some (i.loop, .submitFull i.connection sendRefused recvRefused i.job.requests)
  | .submitClosed i => some (i.loop, .submitClosed i.connection i.job.requests)
  | .submitThrew i => some (i.loop, .submitThrew i.connection i.job.requests)
  | .execute _ i invoke => some (i.loop, .execute i.connection i.job invoke)
  | .post _ i result => some (i.loop, .post i.connection i.job.batch result)
  | .startLoop l _ => some (l, .start)
  | .dispatchAcceptedConnection l => some (l, .postStartConnection)
  | .beginDrain l _ => some (l, .beginDrain)
  | .requestStop l _ => some (l, .requestStop)
  | _ => none

/-! ## 歩みを合わせる条件 -/

/-- 接続が、束 `i` の `TrySubmitBatch` の中にいる。 -/
def submitting (s : RpcServer ℓ ω) (i : JobId ℓ) : Prop :=
  (s.connection i).readLoop = .submitting i.job.requests ∧ (s.connection i).submissions = i.job.batch ∨
    (s.connection i).readLoop = .counting i.job.requests.length ∧ (s.connection i).submissions = i.job.batch + 1

/-- 集まりの中だけで起こる動作。積むこと、走らせること、受け付けを終える呼び出しの始まりは、ここでは起こらない。 -/
def allowsPool (s : RpcServer ℓ ω) : WorkerPool.Act (JobId ℓ) ω Closer → Prop
  | .check i | .refuseClosed i | .load i | .refuseFull i _ | .reserve i _ | .retry i _ | .select i _ | .lock i _
  | .recheck i _ | .rollback i _ | .unlock i _ _ | .throwPush i _ | .unwind i _ | .release i => s.submitting i
  | .push _ _ | .workerRun _ _ | .close _ _ => False
  | _ => True

/-- 入出力の糸だけで起こる動作。 -/
def allowsLoop : ConnectionIoLoop.Act → Bool
  | .startConnection _ | .beginDrainOnContext | .collectClosedConnections | .received _ _ _ _ | .receivedEof _
  | .receiveFailed _ | .sendCompleted _ _ _ | .sendFailed _ | .handleWorkerResult _ _ _ | .fault _ => true
  | _ => false

def allows (s : RpcServer ℓ ω) : Act ℓ ω → Prop
  | .pool a => s.allowsPool a
  | .loop _ a => allowsLoop a = true
  | .push i _ => (s.connection i).submissions = i.job.batch
  | .countAdmitted i _ => s.pool.submit i = .returned true ∧ (s.connection i).submissions = i.job.batch + 1
  | .submitFull i _ _ =>
      s.pool.submit i = .returned false ∧ s.pool.accepting = true ∧ (s.connection i).submissions = i.job.batch
  | .submitClosed i =>
      s.pool.submit i = .returned false ∧ s.pool.accepting = false ∧ (s.connection i).submissions = i.job.batch
  | .submitThrew i =>
      (s.pool.submit i = .threw ∨ s.pool.submit i = .check) ∧ (s.connection i).submissions = i.job.batch
  | .execute w i _ | .post w i _ => s.pool.worker w = .run i
  | .finishJob _ i => i.job ∉ (s.connection i).jobs ∧ ∀ entry ∈ (s.connection i).posting, entry.1 ≠ i.job.batch
  | .startConnectionLoops | .stopBeforeRun => s.run = .idle
  | .startLoop l rest => s.run = .starting (l :: rest)
  | .serve => s.run = .starting []
  | .startupFailed rest => s.run = .starting rest
  | .stop => s.run = .accepting ∧ s.stopCalled = false
  | .dispatchAcceptedConnection _ => s.run = .accepting ∧ s.acceptStopped = false
  | .acceptFailed => s.run = .accepting
  | .closeSubmissions => s.run = .accepting ∧ s.stopPosted = true
  | .stopAcceptingOnContext => s.run = .stopping ∧ s.pool.closer .stop = .closed
  | .completeShutdown => s.run = .accepting
  | .beginConnectionDrain => s.run = .closing ∧ s.pool.closer .shutdown = .closed
  | .beginDrain l rest => s.run.beginsDrain l rest
  | .alreadyDraining l rest =>
      s.run.beginsDrain l rest ∧ (s.loops l).state ≠ .created ∧ (s.loops l).state ≠ .running
  | .drainAndJoin => s.run = .beginning []
  | .finishConnectionDrain =>
      s.run = .joining ∧ (s.pool.closer .drain = .closed ∨ s.pool.closer .drain = .joined)
  | .alreadyStopped l rest => s.run = .waiting l rest ∧ (s.loops l).state = .stopped
  | .waited l rest => s.run = .waiting l rest ∧ (s.loops l).state ≠ .stopped ∧ (s.loops l).liveConnections = 0
  | .requestStop l rest => s.run = .requesting l rest
  | .complete => s.run = .finishing []

/-! ## 遷移 -/

def enabled (s : RpcServer ℓ ω) (a : Act ℓ ω) : Prop :=
  (∀ b ∈ a.inPool, (WorkerPool.workerPool Closer cfg.pool).enabled s.pool b) ∧
    (∀ b ∈ a.inLoop, (ConnectionIoLoop.connectionIoLoop cfg.connection).enabled (s.loops b.1) b.2) ∧ s.allows a

/-- `FinishDrain` が糸を待ち合わせてから先は、繰り返しの動作はもう起こらない。 -/
def nextRun (s : RpcServer ℓ ω) : Act ℓ ω → RunPc ℓ
  | .startConnectionLoops => .starting cfg.loops
  | .startLoop _ rest => .starting rest
  | .serve | .stopAcceptingOnContext => .accepting
  | .closeSubmissions => .stopping
  | .startupFailed _ | .stopBeforeRun | .completeShutdown => .closing
  | .beginConnectionDrain => .beginning cfg.loops
  | .beginDrain l rest | .alreadyDraining l rest => s.run.afterBeginDrain l rest
  | .drainAndJoin => .joining
  | .finishConnectionDrain => .finishing cfg.loops
  | .alreadyStopped _ rest | .requestStop _ rest => .finishing rest
  | .waited l rest => .requesting l rest
  | .complete => .completed
  | _ => s.run

def next (s : RpcServer ℓ ω) (a : Act ℓ ω) : RpcServer ℓ ω where
  pool := a.inPool.elim s.pool (WorkerPool.next cfg.pool s.pool)
  loops := a.inLoop.elim s.loops fun b => update s.loops b.1 (ConnectionIoLoop.next cfg.connection (s.loops b.1) b.2)
  run := nextRun cfg s a
  stopCalled := s.stopCalled || a matches .stop
  stopPosted := (s.stopPosted || a matches .stop) && !(a matches .closeSubmissions)
  acceptStopped := s.acceptStopped || a matches .acceptFailed | .stopAcceptingOnContext | .beginConnectionDrain
  executed := s.executed ++ match a with
    | .execute _ i _ => [i]
    | _ => []

/-- 接続の糸、作業の糸、`Run` の糸、`Stop` を呼ぶ糸の動作が、任意の順に起こる遷移系。 -/
def rpcServer : Machine (RpcServer ℓ ω) (Act ℓ ω) where
  init s := s = initial cfg
  enabled := enabled cfg
  next := next cfg

instance (s : RpcServer ℓ ω) (a : Act ℓ ω) : Decidable (s.allows a) := by
  cases a <;> dsimp only [allows] <;> try infer_instance
  case pool a => cases a <;> dsimp only [allowsPool, submitting] <;> infer_instance

instance (s : RpcServer ℓ ω) (a : Act ℓ ω) : Decidable ((rpcServer cfg).enabled s a) :=
  inferInstanceAs (Decidable (_ ∧ _ ∧ _))

end RpcServer

end Xrpc.Server
