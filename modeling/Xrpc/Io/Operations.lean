import Xrpc.Lib.Machine

/-!
# 入出力の操作の表

`src/io/uring/context.cpp` の `operations_` と `staged_sqe_count_`、`AcquireSqe`、`StageOperation`、`TakeOperation`、
`SubmitStagedSqes`、`TryStartOperation`、`CancelFd`、`StageWakeupPoll`、`ProcessCqe` と `Run` を、`Run` の糸の一歩ずつの遷移系
として写す。操作の番地を `α` とし、核の側の提出待ちの列、手元の操作、完了の列を並べて持つ。
-/

namespace Xrpc.Io
open Xrpc.Lib Function

/-! ## 状態 -/

inductive CompletionCategory where
  | awaitable
  | cancel
  | wakeup
  deriving DecidableEq

/-- 操作の完了。`more` は `IORING_CQE_F_MORE` である。 -/
structure Cqe (α : Type) where
  operation : α
  more : Bool
  deriving DecidableEq

/-- これから表に加える操作。 -/
structure Operation (α : Type) where
  address : α
  category : CompletionCategory
  multishot : Bool
  deriving DecidableEq

/-- `AcquireSqe` の呼び出し元。`handler` は、一巡のうちで `processed` 個を処理した後の CQE の処理の中である。 -/
inductive Caller where
  | run
  | handler (processed : Nat) (category : CompletionCategory)
  deriving DecidableEq

/-- `SubmitStagedSqes` から戻る所。`cancel` は `CancelFd` の末尾、`turn` は `Run` の中である。 -/
inductive SubmitReturn (α : Type) where
  | acquireSqe (operation : Operation α) (caller : Caller)
  | cancel (caller : Caller)
  | turn
  deriving DecidableEq

/-- `Run` の糸の位置。`retrySqe` は、満ちた列を提出した後の二度目の `io_uring_get_sqe` である。 -/
inductive LoopPc (α : Type) where
  | unstarted
  | acquireSqe (operation : Operation α) (caller : Caller)
  | retrySqe (operation : Operation α) (caller : Caller)
  | submit (back : SubmitReturn α)
  | loop
  | wait
  | processCqe (processed : Nat)
  | handler (processed : Nat) (category : CompletionCategory)
  | returned
  | aborted (reason : String)
  deriving DecidableEq

namespace LoopPc

variable {α : Type}

def isAcquiring : LoopPc α → Bool
  | .acquireSqe .. | .retrySqe .. => true
  | _ => false

def isSubmitting : LoopPc α → Bool
  | .submit _ => true
  | _ => false

def isProcessing : LoopPc α → Bool
  | .processCqe _ => true
  | _ => false

/-- 処理している CQE の種類。 -/
def handling : LoopPc α → Option CompletionCategory
  | .handler _ category => some category
  | _ => none

end LoopPc

def Caller.pc {α : Type} : Caller → LoopPc α
  | .run => .submit .turn
  | .handler processed category => .handler processed category

/-- `sqes` は用意した後、核が受け取っていない操作、`inflight` は核が受け取り、最後の CQE を返していない操作である。 -/
structure TableState (α : Type) where
  operations : List α
  ownerIndex : α → Nat
  multishot : α → Bool
  category : α → CompletionCategory
  stagedSqeCount : Nat
  stopRequested : Bool
  sqes : List α
  inflight : List α
  cqes : List (Cqe α)
  pc : LoopPc α

/-- 一回の `io_uring_submit` の結果。`failed` は負の値であり、`caught` はその例外をコルーチンが受け取ることを表す。 -/
inductive SubmitResult where
  | interrupted
  | failed (caught : Bool)
  | submitted (count : Nat)
  deriving DecidableEq

def SubmitResult.count : SubmitResult → Nat
  | .submitted count => count
  | _ => 0

/-- `kernelMore` と `kernelFinal` は核、`requestStop` は任意の糸、残りは `Run` の糸の動作である。 -/
inductive TableAct (α : Type) where
  | kernelMore (address : α)
  | kernelFinal (address : α)
  | requestStop
  | run (address : α)
  | getSqe
  | submit (result : SubmitResult)
  | endSubmit
  | checkLoop
  | waitCqe
  | waitInterrupted
  | processCqe
  | tryStart (address : α) (multishot : Bool)
  | cancelFd (address : α)
  | stageWakeupPoll (address : α)
  | endHandler

namespace TableState

variable {α : Type} [DecidableEq α]

def initial (ownerIndex : α → Nat) : TableState α where
  operations := []
  ownerIndex
  multishot _ := false
  category _ := .awaitable
  stagedSqeCount := 0
  stopRequested := false
  sqes := []
  inflight := []
  cqes := []
  pc := .unstarted

/-! ## 表 -/

/-- `StageOperation`。用意した SQE も列に加わる。 -/
def stageOperation (s : TableState α) (operation : Operation α) : TableState α :=
  { s with
    operations := s.operations ++ [operation.address]
    ownerIndex := update s.ownerIndex operation.address s.operations.length
    multishot := update s.multishot operation.address operation.multishot
    category := update s.category operation.address operation.category
    stagedSqeCount := s.stagedSqeCount + 1
    sqes := s.sqes ++ [operation.address] }

/-- `TakeOperation`。空いた所を末尾の要素で埋める。 -/
def takeOperation (s : TableState α) (address : α) : TableState α :=
  let index := s.ownerIndex address
  match s.operations.getLast? with
  | none => s
  | some last =>
      if index = s.operations.length - 1 then { s with operations := s.operations.dropLast }
      else
        { s with
          operations := (s.operations.set index last).dropLast
          ownerIndex := update s.ownerIndex last index }

def abort (s : TableState α) (reason : String) : TableState α := { s with pc := .aborted reason }

/-! ## `Run` の糸 -/

/-- 用意した操作を表に加え、呼び出し元に戻る。`CancelFd` は、そのまま提出する。 -/
def stage (s : TableState α) (operation : Operation α) (caller : Caller) : TableState α :=
  { s.stageOperation operation with
    pc := if operation.category = .cancel then .submit (.cancel caller) else Caller.pc caller }

/-- 列に空きがあれば表に加える。満ちた列は提出する。 -/
def getSqe (s : TableState α) (ringEntries : Nat) (operation : Operation α) (caller : Caller) : TableState α :=
  if s.sqes.length < ringEntries then s.stage operation caller
  else if s.stagedSqeCount ≠ 0 then { s with pc := .submit (.acquireSqe operation caller) }
  else s.abort "io_uring_get_sqe failed"

def retrySqe (s : TableState α) (ringEntries : Nat) (operation : Operation α) (caller : Caller) : TableState α :=
  if s.sqes.length < ringEntries then s.stage operation caller else s.abort "io_uring_get_sqe failed"

def submitStep (s : TableState α) (back : SubmitReturn α) : SubmitResult → TableState α
  | .interrupted => s
  | .failed caught =>
      match caught, back with
      | true, .acquireSqe _ caller | true, .cancel caller => { s with pc := Caller.pc caller }
      | _, _ => s.abort "io_uring_submit"
  | .submitted count =>
      if count = 0 then s.abort "io_uring_submit returned zero while operations remain staged"
      else if s.stagedSqeCount < count then s.abort "io_uring_submit reported more operations than were staged"
      else
        { s with
          stagedSqeCount := s.stagedSqeCount - count
          sqes := s.sqes.drop count
          inflight := s.inflight ++ s.sqes.take count }

def endSubmit (s : TableState α) : SubmitReturn α → TableState α
  | .acquireSqe operation caller => { s with pc := .retrySqe operation caller }
  | .cancel caller => { s with pc := Caller.pc caller }
  | .turn => { s with pc := .loop }

def untracked : String := "UringContext received a CQE for an untracked operation"

def waitWithStaged : String := "UringContext attempted to wait with staged SQEs"

def processCqe (s : TableState α) (processed : Nat) (cqe : Cqe α) : TableState α :=
  let isFinal := !s.multishot cqe.operation || !cqe.more
  if s.operations[s.ownerIndex cqe.operation]? = some cqe.operation then
    let s' := if isFinal then s.takeOperation cqe.operation else s
    { s' with cqes := s.cqes.tail, pc := .handler processed (s.category cqe.operation) }
  else s.abort untracked

def checkLoop (s : TableState α) : TableState α :=
  if s.stopRequested = false ∨ s.operations ≠ [] then
    if s.stagedSqeCount ≠ 0 then s.abort waitWithStaged else { s with pc := .wait }
  else { s with pc := .returned }

/-- 一巡のうちで処理する CQE は `ringEntries` 個までである。 -/
def endHandler (s : TableState α) (ringEntries processed : Nat) : TableState α :=
  if processed + 1 < ringEntries ∧ s.cqes ≠ [] then { s with pc := .processCqe (processed + 1) }
  else { s with pc := .submit .turn }

/-! ## 遷移系 -/

/-- 新しい番地は、表の操作と重ならない。 -/
def enabled (s : TableState α) : TableAct α → Prop
  | .kernelMore address => address ∈ s.inflight ∧ s.multishot address = true
  | .kernelFinal address => address ∈ s.inflight
  | .requestStop => True
  | .run _ => s.pc = .unstarted
  | .getSqe => s.pc.isAcquiring = true
  -- 核は、列にある分までを受け取る
  | .submit result => s.pc.isSubmitting = true ∧ s.stagedSqeCount ≠ 0 ∧ result.count ≤ s.sqes.length
  | .endSubmit => s.pc.isSubmitting = true ∧ s.stagedSqeCount = 0
  | .checkLoop => s.pc = .loop
  | .waitCqe => s.pc = .wait ∧ s.cqes ≠ []
  | .waitInterrupted => s.pc = .wait
  | .processCqe => s.pc.isProcessing = true
  -- コルーチンと、積まれた関数は、操作を始め、取り消す
  | .tryStart address _ =>
      (s.pc.handling = some .awaitable ∨ s.pc.handling = some .wakeup) ∧ s.stopRequested = false ∧ address ∉ s.operations
  | .cancelFd address =>
      (s.pc.handling = some .awaitable ∨ s.pc.handling = some .wakeup) ∧ address ∉ s.operations
  | .stageWakeupPoll address => s.pc.handling = some .wakeup ∧ s.stopRequested = false ∧ address ∉ s.operations
  | .endHandler => s.pc.handling.isSome

/-- CQE の処理の中で、操作を加え始める。 -/
def beginStage (s : TableState α) (operation : Operation α) : TableState α :=
  match s.pc with
  | .handler processed category => { s with pc := .acquireSqe operation (.handler processed category) }
  | _ => s

def next (ringEntries : Nat) (s : TableState α) : TableAct α → TableState α
  | .kernelMore address => { s with cqes := s.cqes ++ [⟨address, true⟩] }
  | .kernelFinal address => { s with inflight := s.inflight.erase address, cqes := s.cqes ++ [⟨address, false⟩] }
  | .requestStop => { s with stopRequested := true }
  | .run address => { s with pc := .acquireSqe ⟨address, .wakeup, true⟩ .run }
  | .getSqe =>
      match s.pc with
      | .acquireSqe operation caller => s.getSqe ringEntries operation caller
      | .retrySqe operation caller => s.retrySqe ringEntries operation caller
      | _ => s
  | .submit result => match s.pc with | .submit back => s.submitStep back result | _ => s
  | .endSubmit => match s.pc with | .submit back => s.endSubmit back | _ => s
  | .checkLoop => s.checkLoop
  | .waitCqe => { s with pc := .processCqe 0 }
  | .waitInterrupted => { s with pc := .loop }
  | .processCqe =>
      match s.pc, s.cqes with
      | .processCqe processed, cqe :: _ => s.processCqe processed cqe
      | _, _ => s
  | .tryStart address multishot => s.beginStage ⟨address, .awaitable, multishot⟩
  | .cancelFd address => s.beginStage ⟨address, .cancel, false⟩
  | .stageWakeupPoll address => s.beginStage ⟨address, .wakeup, true⟩
  | .endHandler => match s.pc with | .handler processed _ => s.endHandler ringEntries processed | _ => s

/-- 表に加えた後、最後の CQE を処理していない操作。 -/
def Outstanding (s : TableState α) (address : α) : Prop :=
  address ∈ s.sqes ∨ address ∈ s.inflight ∨ ⟨address, false⟩ ∈ s.cqes

end TableState

/-- `Run` の糸、核、止める求めの遷移系。`ringEntries` は提出待ちの列の大きさである。 -/
def operationTable (α : Type) [DecidableEq α] (ringEntries : Nat) : Machine (TableState α) (TableAct α) where
  init s := ∃ ownerIndex, s = .initial ownerIndex
  enabled := TableState.enabled
  next := TableState.next ringEntries

instance {α : Type} [DecidableEq α] (ringEntries : Nat) (s : TableState α) (a : TableAct α) :
    Decidable ((operationTable α ringEntries).enabled s a) := by
  cases a <;> dsimp only [operationTable, TableState.enabled] <;> infer_instance

end Xrpc.Io
