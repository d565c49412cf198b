import Xrpc.Lib.Machine
import Xrpc.Protocol.Envelope

/-!
# 核に預ける受信バッファ

`src/io/uring/buffer_pool.cpp` と、それを使う `context.cpp` の `ProcessAwaitableCqe` と `await_resume` を写す。バッファの輪は、
核に差し出した番号の並びで表す。番地 `ω` は `UringBuffer` の置かれる場所である。`Abort` は、その文を値とする失敗で表す。
-/

namespace Xrpc.Io
open Xrpc.Lib Xrpc.Protocol Function

/-! ## 設定 -/

structure UringBufferPoolConfig where
  bufferCount : UInt32 := 2048
  bufferSize : UInt32 := 16 * 1024
  deriving DecidableEq

def maxBufferCount : UInt32 := (1 : UInt32) <<< 15

/-- `std::size_t` の最大値。 -/
def sizeMax : Nat := 2 ^ 64 - 1

def UringBufferPoolConfig.validate (config : UringBufferPoolConfig) : Status :=
  if config.bufferCount = 0 ∨ config.bufferCount &&& (config.bufferCount - 1) ≠ 0 then
    ⟨.invalidArgument, text "provided buffer count must be a power of two"⟩
  else if maxBufferCount < config.bufferCount then
    ⟨.invalidArgument, text "provided buffer count must not exceed 32768"⟩
  else if config.bufferSize = 0 then
    ⟨.invalidArgument, text "provided buffer size must be greater than zero"⟩
  else if sizeMax / config.bufferSize.toNat < config.bufferCount.toNat then
    ⟨.invalidArgument, text "provided buffer storage size overflows size_t"⟩
  else {}

/-! ## 借りたバッファとプール -/

/-- `storage_` の中の区間。 -/
structure StorageSpan where
  data : Nat := 0
  size : Nat := 0
  deriving DecidableEq

/-- `pool` は `pool_` が空でないことを表す。 -/
structure UringBuffer where
  pool : Bool := false
  bufferId : UInt16 := 0
  bytes : StorageSpan := {}
  deriving DecidableEq

/-- `bufferRing` は、核に差し出され、まだ選ばれていない番号の並びである。 -/
structure UringProvidedBufferPool where
  config : UringBufferPoolConfig
  bufferRing : List UInt16
  leased : UInt16 → Bool
  outstandingLeases : Nat

namespace UringProvidedBufferPool

def provide (pool : UringProvidedBufferPool) (bufferId : UInt16) : UringProvidedBufferPool :=
  { pool with bufferRing := pool.bufferRing ++ [bufferId] }

def register (config : UringBufferPoolConfig) : Except Status UringProvidedBufferPool :=
  if config.validate.isOk then
    .ok ((List.range config.bufferCount.toNat).foldl (fun pool index => pool.provide (UInt16.ofNat index))
      { config, bufferRing := [], leased := fun _ => false, outstandingLeases := 0 })
  else .error config.validate

def acquire (pool : UringProvidedBufferPool) (bufferId : UInt16) (size : Nat) :
    Except String (UringBuffer × UringProvidedBufferPool) :=
  if pool.config.bufferCount.toNat ≤ bufferId.toNat then
    .error "io_uring selected a provided buffer ID outside the registered pool"
  else if pool.config.bufferSize.toNat < size then
    .error "io_uring reported more bytes than the selected provided buffer can hold"
  else if pool.leased bufferId then
    .error "io_uring selected a provided buffer that is already leased"
  else
    .ok ({ pool := true, bufferId, bytes := ⟨bufferId.toNat * pool.config.bufferSize.toNat, size⟩ },
      { pool with leased := update pool.leased bufferId true, outstandingLeases := pool.outstandingLeases + 1 })

def release (pool : UringProvidedBufferPool) (bufferId : UInt16) : Except String UringProvidedBufferPool :=
  if pool.config.bufferCount.toNat ≤ bufferId.toNat ∨ pool.leased bufferId = false ∨ pool.outstandingLeases = 0 then
    .error "attempted to release a provided buffer that is not leased"
  else
    .ok { pool.provide bufferId with
      leased := update pool.leased bufferId false, outstandingLeases := pool.outstandingLeases - 1 }

end UringProvidedBufferPool

namespace UringBuffer

def reset (buffer : UringBuffer) (pool : UringProvidedBufferPool) : Except String (UringBuffer × UringProvidedBufferPool) :=
  if buffer.pool then do
    let pool ← pool.release buffer.bufferId
    return ({ buffer with pool := false, bytes := {} }, pool)
  else return (buffer, pool)

/-- 中身を移された後の値。`buffer_id_` は残る。 -/
def moved (buffer : UringBuffer) : UringBuffer := { buffer with pool := false, bytes := {} }

/-- 移動代入。同じ番地への代入は `LeaseState` の側で除く。 -/
def moveAssign (buffer other : UringBuffer) (pool : UringProvidedBufferPool) :
    Except String (UringBuffer × UringProvidedBufferPool) := do
  let (buffer, pool) ← buffer.reset pool
  return ({ buffer with pool := other.pool, bufferId := other.bufferId, bytes := other.bytes }, pool)

/-- 借りている番号。 -/
def lease (buffer : UringBuffer) : Option UInt16 := if buffer.pool then some buffer.bufferId else none

end UringBuffer

/-! ## 遷移系 -/

/-- `IORING_CQE_F_BUFFER` の立った受信の CQE。 -/
structure ProvidedCqe where
  bufferId : UInt16
  res : Int
  deriving DecidableEq

def ProvidedCqe.bytesTransferred (cqe : ProvidedCqe) : Nat := if 0 < cqe.res then cqe.res.toNat else 0

/-- `cqes` は、まだ処理していない CQE である。 -/
structure LeaseState (ω : Type) where
  pool : UringProvidedBufferPool
  cqes : List ProvidedCqe
  buffers : ω → Option UringBuffer
  aborted : Option String

/-- `acquire` は `Acquire` の返す値を、まだ使われていない番地に置く。 -/
inductive LeaseAct (ω : Type) where
  | select (bufferId : UInt16) (res : Int)
  | acquire (o : ω) (cqe : ProvidedCqe)
  | construct (o : ω)
  | moveConstruct (o other : ω)
  | moveAssign (o other : ω)
  | reset (o : ω)
  | destroy (o : ω)

namespace LeaseState

variable {ω : Type} [DecidableEq ω]

/-- 番地ごとの、借りている番号。 -/
def leases (buffers : ω → Option UringBuffer) (o : ω) : Option UInt16 := (buffers o).bind UringBuffer.lease

def holding (s : LeaseState ω) : ω → Option UInt16 := leases s.buffers

def resume {α : Type} (s : LeaseState ω) (result : Except String α) (k : α → LeaseState ω) : LeaseState ω :=
  match result with
  | .ok a => k a
  | .error message => { s with aborted := some message }

/-- 番地 `o` の値 `buffer` を空にする。 -/
def resetAt (s : LeaseState ω) (o : ω) (buffer : UringBuffer) : LeaseState ω :=
  s.resume (buffer.reset s.pool) fun (buffer, pool) => { s with pool, buffers := update s.buffers o (some buffer) }

def enabled (s : LeaseState ω) : LeaseAct ω → Prop
  -- 核は差し出されたバッファの一つを選び、その大きさを超えて書かない
  | .select bufferId res => bufferId ∈ s.pool.bufferRing ∧ res ≤ s.pool.config.bufferSize.toNat
  | .acquire o cqe => s.buffers o = none ∧ cqe ∈ s.cqes
  | .construct o => s.buffers o = none
  | .moveConstruct o other => s.buffers o = none ∧ (s.buffers other).isSome
  | .moveAssign o other => (s.buffers o).isSome ∧ (s.buffers other).isSome
  | .reset o | .destroy o => (s.buffers o).isSome

def next (s : LeaseState ω) : LeaseAct ω → LeaseState ω
  | .select bufferId res =>
      { s with
        pool := { s.pool with bufferRing := s.pool.bufferRing.erase bufferId }
        cqes := s.cqes ++ [⟨bufferId, res⟩] }
  | .acquire o cqe =>
      s.resume (s.pool.acquire cqe.bufferId cqe.bytesTransferred) fun (buffer, pool) =>
        { s with pool, cqes := s.cqes.erase cqe, buffers := update s.buffers o (some buffer) }
  | .construct o => { s with buffers := update s.buffers o (some {}) }
  | .moveConstruct o other =>
      match s.buffers other with
      | some source => { s with buffers := update (update s.buffers other (some source.moved)) o (some source) }
      | none => s
  | .moveAssign o other =>
      if o = other then s else
      match s.buffers o, s.buffers other with
      | some buffer, some source =>
          s.resume (buffer.moveAssign source s.pool) fun (buffer, pool) =>
            { s with pool, buffers := update (update s.buffers other (some source.moved)) o (some buffer) }
      | _, _ => s
  | .reset o =>
      match s.buffers o with
      | some buffer => s.resetAt o buffer
      | none => s
  -- 破棄は `Reset` の後、番地を空ける
  | .destroy o =>
      match s.buffers o with
      | some buffer =>
          let s := s.resetAt o buffer
          { s with buffers := update s.buffers o none }
      | none => s

end LeaseState

/-- 核の選択と、`UringBuffer` への操作が任意の順に起こる遷移系。`Abort` の後は何も起こらない。 -/
def bufferLeases (ω : Type) [DecidableEq ω] (config : UringBufferPoolConfig) : Machine (LeaseState ω) (LeaseAct ω) where
  init s := UringProvidedBufferPool.register config = .ok s.pool ∧ s.cqes = [] ∧ s.buffers = (fun _ => none) ∧
    s.aborted = none
  enabled s a := s.aborted = none ∧ s.enabled a
  next := LeaseState.next

instance {ω : Type} [DecidableEq ω] (config : UringBufferPoolConfig) (s : LeaseState ω) (a : LeaseAct ω) :
    Decidable ((bufferLeases ω config).enabled s a) := by
  cases a <;> dsimp only [bufferLeases, LeaseState.enabled] <;> infer_instance

/-- 番号の置かれる所。 -/
inductive BufferPlace where
  | offered
  | selected
  | held
  deriving DecidableEq

/-- 番号 `bufferId` が `place` にある。 -/
def LeaseState.At {ω : Type} (s : LeaseState ω) (bufferId : UInt16) : BufferPlace → Prop
  | .offered => bufferId ∈ s.pool.bufferRing
  | .selected => ∃ cqe ∈ s.cqes, cqe.bufferId = bufferId
  | .held => ∃ o, s.holding o = some bufferId

/-! ## 受信の完了 -/

/-- `ProcessAwaitableCqe` の `result.buffer_ = Acquire(...)`。`temporary` は `Acquire` の返す値である。 -/
def processAwaitableCqe {ω : Type} (result temporary : ω) (cqe : ProvidedCqe) : List (LeaseAct ω) :=
  [.acquire temporary cqe, .moveAssign result temporary, .destroy temporary]

/-- `await_resume` の `std::exchange(result_, {})`。`temporary` は空の値である。 -/
def awaitResume {ω : Type} (result returned temporary : ω) : List (LeaseAct ω) :=
  [.construct temporary, .moveConstruct returned result, .moveAssign result temporary, .destroy temporary]

end Xrpc.Io
