import Xrpc.Server.Lemmas.ConnectionIoLoop
import Xrpc.Server.Lemmas.WorkerPool
import Xrpc.Server.RpcServer

/-!
# 組み合わせる部品の動作
-/

namespace Xrpc.Server
open Xrpc.Lib Function

namespace ConnectionIoLoop
open ServerConnection

variable {cfg : ServerConnectionConfig} {s s' : ConnectionIoLoop} {n : Nat}

/-! ## 束と結果に触れない動作 -/

def Act.touchesWork : Act → Bool
  | .submitAccepted _ _ | .execute _ _ _ | .post _ _ _ => true
  | _ => false

/-- どの接続の束も、渡す前の結果も変わらない。 -/
def SameWork (s s' : ConnectionIoLoop) : Prop :=
  ∀ n, (s'.objects n).jobs = (s.objects n).jobs ∧ (s'.objects n).posting = (s.objects n).posting

/-- まだ作られていない実体は、何も持たない。 -/
def Fresh (s : ConnectionIoLoop) : Prop := ∀ n, s.created ≤ n → (s.objects n).jobs = [] ∧ (s.objects n).posting = []

theorem SameWork.refl : SameWork s s := fun _ => ⟨rfl, rfl⟩

theorem SameWork.of_update {c : ServerConnection} (h : s'.objects = update s.objects n c)
    (hjobs : c.jobs = (s.objects n).jobs) (hposting : c.posting = (s.objects n).posting) : SameWork s s' := by
  intro m
  rw [h]
  by_cases hmn : m = n
  · rw [hmn, update_self]
    exact ⟨hjobs, hposting⟩
  · rw [update_of_ne hmn]
    exact ⟨rfl, rfl⟩

theorem SameWork.of_kept {f : ServerConnection → ServerConnection} (h : Kept (s.lend n) (f (s.lend n))) :
    SameWork s (s.runOn n f) :=
  .of_update rfl h.jobs h.posting

theorem SameWork.of_core (g : ConnectionCore → ConnectionCore) :
    SameWork s (s.runOn n fun c => { c with core := g c.core }) :=
  .of_update rfl rfl rfl

theorem sameWork_foldl {w : ConnectionIoLoop → UInt64 × Nat → ConnectionIoLoop} (h : ∀ s entry, SameWork s (w s entry))
    (entries : List (UInt64 × Nat)) : SameWork s (entries.foldl w s) := by
  intro n
  exact ⟨foldl_keeps (fun s => (s.objects n).jobs) (fun s entry => (h s entry n).1) entries,
    foldl_keeps (fun s => (s.objects n).posting) (fun s entry => (h s entry n).2) entries⟩

theorem sameWork_startConnection (hfresh : Fresh s) (recvRefused : Bool) :
    SameWork s (s.startConnectionOnContext cfg recvRefused) := by
  rw [startConnectionOnContext]
  repeat' split
  · exact .refl
  · exact .refl
  · exact .refl
  · obtain ⟨hjobs, hposting⟩ := hfresh s.created (Nat.le_refl _)
    have h := kept_start recvRefused (c := { create cfg s.nextConnectionId with
      core :=
        { ownerPendingWriteBytes := s.pendingWriteBytes
          ownerLiveConnections := s.liveConnections + 1
          faults := s.faults } })
    simp only [runOn, lend, update_self, update_idem]
    exact .of_update rfl (h.jobs.trans hjobs.symm) (h.posting.trans hposting.symm)

theorem sameWork_next (hfresh : Fresh s) {a : Act} (ha : a.touchesWork = false) : SameWork s (next cfg s a) := by
  cases a with
  | submitAccepted | execute | post => cases ha
  | start | postStartConnection | beginDrain | stopImmediately | requestStop | collectClosedConnections | fault =>
      exact .refl
  | startConnection recvRefused =>
      exact sameWork_startConnection (s := { s with pendingStarts := s.pendingStarts - 1 }.collectClosedConnections)
        hfresh recvRefused
  | beginDrainOnContext =>
      exact sameWork_foldl (s := { s with drainPosted := false }) (fun _ _ => .of_core ConnectionCore.beginDrain) _
  | closeConnectionsOnContext =>
      refine sameWork_foldl (s := { s with closePosted := false }) (fun s entry => ?_) _
      split
      · exact .refl
      · exact .of_core ConnectionCore.close
  | received n sendRefused recvRefused bytes => exact .of_kept (kept_received cfg sendRefused recvRefused bytes)
  | receivedEof n => exact .of_kept kept_receivedEof
  | receiveFailed n => exact .of_kept kept_receiveFailed
  | countAdmitted n recvRefused requestCount =>
      have h := kept_continueRead recvRefused (c := { s.lend n with
        core := { (s.lend n).core with inflightRequests := (s.lend n).core.inflightRequests + requestCount } })
      exact .of_update rfl h.jobs h.posting
  | submitFull n sendRefused recvRefused requests => exact .of_kept (kept_submitFull cfg sendRefused recvRefused requests)
  | submitClosed n requests => exact .of_kept kept_submitClosed
  | submitThrew n requests => exact .of_kept kept_submitThrew
  | sendCompleted n refused bytes => exact .of_core (ConnectionCore.sendCompleted refused (some bytes))
  | sendFailed n => exact .of_core (ConnectionCore.sendCompleted false none)
  | handleWorkerResult n refused result =>
      rw [next]
      split
      next =>
        have htake : SameWork s (s.modify n fun c => c.takeResult result) := .of_update rfl rfl rfl
        rw [handleWorkerResult]
        split
        next => exact htake
        next m _ =>
          obtain ⟨hjobs, hposting⟩ := handleResult_jobs (c := (s.modify n fun c => c.takeResult result).lend m) cfg refused
            result
          have hrun : SameWork _ ((s.modify n fun c => c.takeResult result).runOn m
            fun c => c.handleResult cfg refused result) := .of_update rfl hjobs hposting
          exact fun k => ⟨(hrun k).1.trans (htake k).1, (hrun k).2.trans (htake k).2⟩
      next => exact .of_update rfl rfl rfl

theorem Fresh.next (hfresh : Fresh s) (h : LoopInv cfg s) {a : Act} (henabled : s.enabled a) :
    Fresh (next cfg s a) := by
  have hother : ∀ {m} (c : ServerConnection), m < s.created → ∀ n, s.created ≤ n →
      (update s.objects m c n).jobs = [] ∧ (update s.objects m c n).posting = [] := by
    intro m c hm n hn
    rw [update_of_ne (by omega)]
    exact hfresh n hn
  cases hwork : a.touchesWork with
  | false =>
      intro n hn
      have hsame : SameWork s (ConnectionIoLoop.next cfg s a) := sameWork_next hfresh hwork
      have hold := hfresh n ((h.advance_next henabled).created.trans hn)
      exact ⟨(hsame n).1.trans hold.1, (hsame n).2.trans hold.2⟩
  | true =>
      cases a with
      | submitAccepted m requests => exact hother _ henabled.1
      | execute m job invoke => exact hother _ henabled.1
      | post m batch result => exact hother _ henabled.1
      | _ => cases hwork

theorem reachable_fresh (h : (connectionIoLoop cfg).Reachable s) : Fresh s :=
  h.invariant (I := Fresh) (by rintro _ rfl _ _; exact ⟨rfl, rfl⟩) fun _ _ hreach hfresh henabled _ =>
    hfresh.next (reachable_loopInv hreach) henabled.2

/-! ## `Running` を離れた後 -/

/-- 表の側の欄。 -/
def table (s : ConnectionIoLoop) : LoopState × Bool × Nat × List (UInt64 × Nat) :=
  (s.state, s.stopRequested, s.created, s.connections)

theorem table_beginDrainOnContext : s.beginDrainOnContext.table = s.table := by
  refine foldl_keeps table (fun s entry => ?_) _
  rfl

theorem closeConnectionsOnContext_spec :
    s.closeConnectionsOnContext.state = s.state ∧ s.closeConnectionsOnContext.stopRequested = s.stopRequested ∧
      s.closeConnectionsOnContext.created = s.created ∧ ∀ entry ∈ s.closeConnectionsOnContext.connections, entry ∈ s.connections := by
  have htable := foldl_keeps (s := s) table (w := fun s entry =>
    if (s.objects entry.2).core.state = .closed then s
    else s.runOn entry.2 fun c => { c with core := c.core.close }) (fun s entry => by split <;> rfl) s.connections
  simp only [table, Prod.mk.injEq] at htable
  exact ⟨htable.1, htable.2.1, htable.2.2.1, fun entry hentry => htable.2.2.2 ▸ List.mem_of_mem_filter hentry⟩

theorem table_handleWorkerResult (refused : Bool) (result : WorkerResult) :
    (next cfg s (.handleWorkerResult n refused result)).table = s.table := by
  rw [next]
  split
  next =>
    rw [handleWorkerResult]
    split <;> rfl
  next => rfl

theorem state_startConnectionOnContext (recvRefused : Bool) :
    (s.startConnectionOnContext cfg recvRefused).state = s.state ∧
      (s.startConnectionOnContext cfg recvRefused).stopRequested = s.stopRequested := by
  rw [startConnectionOnContext]
  repeat' split
  all_goals exact ⟨rfl, rfl⟩

/-- 状態を変えるのは、`Start` と `BeginDrain` だけである。 -/
theorem state_next {a : Act} (hstart : a ≠ .start) (hdrain : a ≠ .beginDrain) : (next cfg s a).state = s.state := by
  cases a with
  | start => exact absurd rfl hstart
  | beginDrain => exact absurd rfl hdrain
  | startConnection recvRefused => exact (state_startConnectionOnContext recvRefused).1
  | beginDrainOnContext => exact congrArg Prod.fst (table_beginDrainOnContext (s := { s with drainPosted := false }))
  | closeConnectionsOnContext => exact (closeConnectionsOnContext_spec (s := { s with closePosted := false })).1
  | handleWorkerResult n refused result =>
      exact congrArg Prod.fst (table_handleWorkerResult refused result)
  | _ => rfl

theorem stopRequested_next {a : Act} (hstop : a ≠ .requestStop) : (next cfg s a).stopRequested = s.stopRequested := by
  cases a with
  | requestStop => exact absurd rfl hstop
  | startConnection recvRefused => exact (state_startConnectionOnContext recvRefused).2
  | beginDrainOnContext =>
      exact congrArg (·.2.1) (table_beginDrainOnContext (s := { s with drainPosted := false }))
  | closeConnectionsOnContext => exact (closeConnectionsOnContext_spec (s := { s with closePosted := false })).2.1
  | handleWorkerResult n refused result =>
      exact congrArg (·.2.1) (table_handleWorkerResult refused result)
  | _ => rfl

/-- `Running` でなければ、接続は加わらない。 -/
theorem created_next (cfg : ServerConnectionConfig) (hrunning : s.state ≠ .running) (a : Act) :
    (next cfg s a).created = s.created ∧ ∀ entry ∈ (next cfg s a).connections, entry ∈ s.connections := by
  have hsame : ∀ {s' : ConnectionIoLoop}, s'.table = s.table →
      s'.created = s.created ∧ ∀ entry ∈ s'.connections, entry ∈ s.connections := by
    intro s' htable
    simp only [table, Prod.mk.injEq] at htable
    exact ⟨htable.2.2.1, fun entry hentry => htable.2.2.2 ▸ hentry⟩
  cases a with
  | startConnection recvRefused =>
      rw [next, startConnectionOnContext]
      split
      next => exact ⟨rfl, fun entry hentry => List.mem_of_mem_filter hentry⟩
      next hstate => exact absurd (not_not.mp hstate) hrunning
  | collectClosedConnections => exact ⟨rfl, fun entry hentry => List.mem_of_mem_filter hentry⟩
  | beginDrainOnContext => exact hsame (table_beginDrainOnContext (s := { s with drainPosted := false }))
  | closeConnectionsOnContext => exact (closeConnectionsOnContext_spec (s := { s with closePosted := false })).2.2
  | handleWorkerResult n refused result => exact hsame (table_handleWorkerResult refused result)
  | _ => exact ⟨rfl, fun _ hentry => hentry⟩

theorem state_next_of_left (hleft : s.state.left = true) {a : Act} (henabled : s.enabled a) :
    (next cfg s a).state = s.state := by
  refine state_next ?_ ?_
  · rintro rfl
    rw [show s.state = _ from henabled] at hleft
    cases hleft
  · rintro rfl
    rcases henabled with hstate | hstate <;> rw [hstate] at hleft <;> cases hleft

theorem ne_running_of_left (hleft : s.state.left = true) : s.state ≠ .running := by
  intro hrunning
  rw [hrunning] at hleft
  cases hleft

/-- `Running` を離れ、すべての接続が閉じている。 -/
def AllClosed (s : ConnectionIoLoop) : Prop :=
  s.state.left = true ∧ ∀ n < s.created, (s.objects n).core.state = .closed

theorem AllClosed.next (hclosed : AllClosed s) (h : LoopInv cfg s) {a : Act} (henabled : s.enabled a) :
    AllClosed (next cfg s a) := by
  refine ⟨(state_next_of_left hclosed.1 henabled).symm ▸ hclosed.1, fun n hn => ?_⟩
  rw [(created_next cfg (ne_running_of_left hclosed.1) a).1] at hn
  exact ((h.advance_next henabled).progress n hn).closed (hclosed.2 n hn)

/-- 生きている接続がなければ、すべての接続が閉じている。 -/
theorem LoopInv.allClosed (h : LoopInv cfg s) (hleft : s.state.left = true) (hlive : s.liveConnections = 0) :
    AllClosed s := by
  refine ⟨hleft, fun n hn => ?_⟩
  have hle := le_sum_map (f := fun m => if (s.objects m).core.notified then 0 else 1) (List.mem_range.mpr hn)
  have hzero := h.live.symm.trans hlive
  rw [unnotifiedConnections] at hzero
  rw [hzero] at hle
  by_contra hopen
  rw [ConnectionCore.notified_of_open hopen, if_neg Bool.false_ne_true] at hle
  exact absurd hle (by decide)

/-- 動き出さなかった繰り返しには、接続がない。 -/
def Unstarted (s : ConnectionIoLoop) : Prop := s.state = .created ∨ s.state = .stopped → s.created = 0

theorem Unstarted.next (hun : Unstarted s) {a : Act} (henabled : s.enabled a) : Unstarted (next cfg s a) := by
  intro hstate
  by_cases hstart : a = .start
  · subst hstart
    rcases hstate with hstate | hstate <;> cases hstate
  by_cases hdrain : a = .beginDrain
  · subst hdrain
    rcases henabled with hold | hold
    · exact hun (.inl hold)
    · rw [ConnectionIoLoop.next, if_neg (by rw [hold]; rintro ⟨⟩)] at hstate
      rcases hstate with hstate | hstate <;> cases hstate
  · rw [state_next hstart hdrain] at hstate
    refine (created_next cfg (fun hrunning => ?_) a).1.trans (hun hstate)
    rcases hstate with hstate | hstate <;> rw [hstate] at hrunning <;> cases hrunning

theorem reachable_unstarted (h : (connectionIoLoop cfg).Reachable s) : Unstarted s :=
  h.invariant (M := connectionIoLoop cfg) (I := Unstarted) (by rintro _ rfl _; rfl) fun _ _ _ hun henabled _ =>
    hun.next henabled.2

end ConnectionIoLoop

namespace WorkerPool

/-! ## 仕事を積まず、走らせもしない動作 -/

section

variable {ι ω κ : Type} [DecidableEq ι] [DecidableEq ω] [DecidableEq κ] {cfg : Config ι ω} {s : State ι ω κ}
  {a : Act ι ω κ}

def Act.movesJob : Act ι ω κ → Bool
  | .push _ _ | .workerRun _ _ => true
  | _ => false

theorem next_of_not_movesJob (hb : enabled cfg s a) (ha : a.movesJob = false) :
    (∀ i, ((next cfg s a).submit i).queued = (s.submit i).queued) ∧ (next cfg s a).ran = s.ran ∧
      ∀ w i, s.worker w = .run i → (next cfg s a).worker w = .run i := by
  have hsubmit : ∀ {i pc}, pc.queued = (s.submit i).queued →
      ∀ j, (update s.submit i pc j).queued = (s.submit j).queued := by
    intro i pc hpc j
    by_cases hji : j = i
    · rw [hji, update_self, hpc]
    · rw [update_of_ne hji]
  have hworker : ∀ {w old pc}, s.worker w = old → (∀ i, old ≠ .run i) →
      ∀ v i, s.worker v = .run i → update s.worker w pc v = .run i := by
    intro w old pc hw hold v i hv
    rw [update_of_ne ?_, hv]
    rintro rfl
    exact hold i (hw.symm.trans hv)
  cases a with
  | push | workerRun => cases ha
  | check i | refuseClosed i | refuseFull i | reserve i | retry i | lock i =>
      exact ⟨hsubmit (by rw [hb.1]; rfl), rfl, fun _ _ h => h⟩
  | load i => exact ⟨hsubmit (by rw [show s.submit i = _ from hb]; rfl), rfl, fun _ _ h => h⟩
  | select i w => exact ⟨hsubmit (by rw [show s.submit i = _ from hb]; rfl), rfl, fun _ _ h => h⟩
  | recheck i w =>
      refine ⟨hsubmit ?_, rfl, fun _ _ h => h⟩
      rw [show s.submit i = _ from hb]
      split <;> rfl
  | rollback i w => exact ⟨hsubmit (by rw [show s.submit i = _ from hb]; rfl), rfl, fun _ _ h => h⟩
  | unlock i w accepted =>
      refine ⟨hsubmit ?_, rfl, fun _ _ h => h⟩
      rw [show s.submit i = _ from hb]
      cases accepted <;> rfl
  | throwPush i w => exact ⟨hsubmit (by rw [show s.submit i = _ from hb]; rfl), rfl, fun _ _ h => h⟩
  | unwind i w => exact ⟨hsubmit (by rw [show s.submit i = _ from hb]; rfl), rfl, fun _ _ h => h⟩
  | release i => exact ⟨hsubmit (by rw [show s.submit i = _ from hb]; rfl), rfl, fun _ _ h => h⟩
  | workerLock w | workerNonEmpty w | workerDrained w | workerSleep w | workerPop w =>
      exact ⟨fun _ => rfl, rfl, hworker hb.1 nofun⟩
  | workerWake w => exact ⟨fun _ => rfl, rfl, hworker hb nofun⟩
  | workerUnlock w i => exact ⟨fun _ => rfl, rfl, hworker hb nofun⟩
  | workerSubtract w i => exact ⟨fun _ => rfl, rfl, hworker hb nofun⟩
  | workerRelease w i => exact ⟨fun _ => rfl, rfl, hworker hb nofun⟩
  | workerExit w => exact ⟨fun _ => rfl, rfl, hworker hb nofun⟩
  | _ => exact ⟨fun _ => rfl, rfl, fun _ _ h => h⟩

end

/-! ## 受け付けを終える呼び出し -/

/-- `DrainAndJoin` の中にいる。 -/
def CloserPc.drains {ω : Type} : CloserPc ω → Bool
  | .store drain | .sweep drain _ => drain
  | .exchange | .notify _ | .join _ | .joined => true
  | _ => false

/-- `drain_requested_` を立てた後である。 -/
def CloserPc.requested {ω : Type} : CloserPc ω → Bool
  | .notify _ | .join _ | .joined => true
  | _ => false

section

variable {ι ω : Type} [DecidableEq ι] [DecidableEq ω] {cfg : Config ι ω} {s : State ι ω Closer} {a : Act ι ω Closer}

/-- `DrainAndJoin` は一度だけ呼ばれる。 -/
structure Closing (drainRequested : Bool) (closer : Closer → CloserPc ω) : Prop where
  drains : ∀ k, closer k = .idle ∨ (closer k).drains = decide (k = .drain)
  requested : drainRequested = true → (closer .drain).requested = true

omit [DecidableEq ω] in
theorem Closing.setCloser {drainRequested : Bool} {closer : Closer → CloserPc ω} (h : Closing drainRequested closer)
    {k : Closer} {pc : CloserPc ω} (hdrains : pc.drains = decide (k = .drain))
    (hrequested : drainRequested = true → k = .drain → pc.requested = true) :
    Closing drainRequested (update closer k pc) := by
  refine ⟨fun j => ?_, fun hset => ?_⟩
  · by_cases hjk : j = k
    · rw [hjk, update_self]
      exact .inr hdrains
    · rw [update_of_ne hjk]
      exact h.drains j
  · by_cases hk : k = .drain
    · rw [hk, update_self]
      exact hrequested hset hk
    · rw [update_of_ne (Ne.symm hk)]
      exact h.requested hset

omit [DecidableEq ω] in
/-- 同じ呼び出しの中で先へ進む。 -/
theorem Closing.advance {drainRequested : Bool} {closer : Closer → CloserPc ω} (h : Closing drainRequested closer)
    {k : Closer} {old pc : CloserPc ω} (hold : closer k = old) (hidle : old ≠ .idle) (hdrains : pc.drains = old.drains)
    (hrequested : old.requested = true → pc.requested = true) : Closing drainRequested (update closer k pc) := by
  refine h.setCloser (hdrains.trans ?_) fun hset hk => hrequested ?_
  · rw [← hold]
    exact (h.drains k).resolve_left (hold ▸ hidle)
  · rw [← hold, hk]
    exact h.requested hset

theorem joined_next {k : Closer} (h : s.closer k = .joined) (hb : enabled cfg s a) :
    (next cfg s a).closer k = .joined := by
  have hother : ∀ {j old pc}, s.closer j = old → old ≠ .joined → update s.closer j pc k = .joined := by
    intro j old pc hold hne
    rw [update_of_ne ?_, h]
    rintro rfl
    exact hne (hold.symm.trans h)
  cases a with
  | close j drain | store j drain | swept j drain | exchange j | notified j | joined j => exact hother hb nofun
  | sweep j | notify j | join j => exact hother hb.1 nofun
  | _ => exact h

theorem Closing.next (h : Closing s.drainRequested s.closer) (hb : enabled cfg s a)
    (hclose : ∀ k drain, a = .close k drain → drain = decide (k = .drain)) :
    Closing (next cfg s a).drainRequested (next cfg s a).closer := by
  cases a with
  | close k drain =>
      refine h.setCloser (hclose k drain rfl) fun hset hk => ?_
      have hidle : s.closer k = .idle := hb
      have hrequested := h.requested hset
      rw [← hk, hidle] at hrequested
      cases hrequested
  | store k drain => exact h.advance hb nofun rfl nofun
  | sweep k drain w rest => exact h.advance hb.1 nofun rfl nofun
  | swept k drain =>
      refine h.advance hb nofun ?_ nofun
      cases drain <;> rfl
  | exchange k =>
      have hexchange : s.closer k = .exchange := hb
      have hk : k = .drain := by
        have hdrains := h.drains k
        rw [hexchange] at hdrains
        simpa [CloserPc.drains] using hdrains
      subst hk
      have hunset : s.drainRequested = false := by
        by_contra hset
        have hrequested := h.requested (Bool.eq_true_of_not_eq_false hset)
        rw [hexchange] at hrequested
        cases hrequested
      have hnotify : Closing s.drainRequested (update s.closer .drain (.notify cfg.workers)) :=
        h.advance hexchange nofun rfl nofun
      show Closing true (update s.closer .drain (if s.drainRequested then .closed else .notify cfg.workers))
      rw [hunset, if_neg Bool.false_ne_true]
      exact ⟨hnotify.drains, fun _ => by rw [update_self]; rfl⟩
  | notify k w rest => exact h.advance hb.1 nofun rfl fun _ => rfl
  | notified k => exact h.advance hb nofun rfl fun _ => rfl
  | join k w rest => exact h.advance hb.1 nofun rfl fun _ => rfl
  | joined k => exact h.advance hb nofun rfl fun _ => rfl
  | _ => exact h

omit [DecidableEq ω] in
/-- `DrainAndJoin` が返るのは、糸を待ち終えてからである。 -/
theorem Closing.joined {drainRequested : Bool} {closer : Closer → CloserPc ω} (h : Closing drainRequested closer)
    (hreturned : closer .drain = .closed ∨ closer .drain = .joined) : closer .drain = .joined := by
  refine hreturned.resolve_left fun hclosed => ?_
  have hdrains := h.drains .drain
  rw [hclosed] at hdrains
  rcases hdrains with hdrains | hdrains <;> cases hdrains

end

end WorkerPool

end Xrpc.Server
