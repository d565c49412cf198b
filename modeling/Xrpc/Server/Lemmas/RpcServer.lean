import Xrpc.Server.Lemmas.Components

/-!
# 終了の手順の不変条件
-/

namespace Xrpc.Server.RpcServer
open Xrpc.Lib Function WorkerPool ConnectionIoLoop

variable {ℓ ω : Type} [DecidableEq ℓ] [DecidableEq ω] {cfg : ServerConfig ℓ ω} {s : RpcServer ℓ ω} {a : Act ℓ ω}

/-! ## 部品としての動作 -/

theorem pool_next_of_none (h : a.inPool = none) : (next cfg s a).pool = s.pool := by
  simp only [next, h, Option.elim_none]

theorem pool_next_of_some {b : WorkerPool.Act (JobId ℓ) ω Closer} (h : a.inPool = some b) :
    (next cfg s a).pool = WorkerPool.next cfg.pool s.pool b := by
  simp only [next, h, Option.elim_some]

/-- 集まりから見た実行。 -/
def poolSimulation (cfg : ServerConfig ℓ ω) :
    (rpcServer cfg).Simulation (fun _ _ => True) (workerPool Closer cfg.pool) fun _ _ => True where
  view := RpcServer.pool
  act _ a := a.inPool
  init _ h := h ▸ rfl
  silent _ _ _ _ _ hact := pool_next_of_none hact
  step _ _ b _ henabled _ hact := ⟨henabled.1 b hact, trivial, pool_next_of_some hact⟩

/-- 繰り返し `l` から見た動作。 -/
def Act.onLoop (l : ℓ) (a : Act ℓ ω) : Option ConnectionIoLoop.Act :=
  a.inLoop.bind fun b => if b.1 = l then some b.2 else none

theorem loops_next_of_none {l : ℓ} (h : a.onLoop l = none) : (next cfg s a).loops l = s.loops l := by
  cases hact : a.inLoop with
  | none => simp only [next, hact, Option.elim_none]
  | some b =>
      rw [Act.onLoop, hact, Option.bind_some] at h
      split at h
      next => cases h
      next hne =>
        simp only [next, hact, Option.elim_some]
        exact update_of_ne (Ne.symm hne) _ _

theorem loops_next_of_some {l : ℓ} {b : ConnectionIoLoop.Act} (henabled : enabled cfg s a) (h : a.onLoop l = some b) :
    (connectionIoLoop cfg.connection).enabled (s.loops l) b ∧
      (next cfg s a).loops l = ConnectionIoLoop.next cfg.connection (s.loops l) b := by
  obtain ⟨⟨m, b'⟩, hact, hbind⟩ := Option.bind_eq_some_iff.mp h
  split at hbind
  next hm =>
    dsimp only at hm
    subst hm
    obtain rfl := Option.some.inj hbind
    refine ⟨henabled.2.1 _ hact, ?_⟩
    simp only [next, hact, Option.elim_some, update_self]
  next => cases hbind

/-- 繰り返し `l` から見た実行。 -/
def loopSimulation (cfg : ServerConfig ℓ ω) (l : ℓ) :
    (rpcServer cfg).Simulation (fun _ _ => True) (connectionIoLoop cfg.connection) fun _ _ => True where
  view s := s.loops l
  act _ a := a.onLoop l
  init _ h := h ▸ rfl
  silent _ _ _ _ _ hact := loops_next_of_none hact
  step _ _ _ _ henabled _ hact :=
    have h := loops_next_of_some henabled hact
    ⟨h.1, trivial, h.2⟩

theorem reachable_pool (h : (rpcServer cfg).Reachable s) : (workerPool Closer cfg.pool).Reachable s.pool :=
  (poolSimulation cfg).reach h

theorem reachable_loop (h : (rpcServer cfg).Reachable s) (l : ℓ) :
    (connectionIoLoop cfg.connection).Reachable (s.loops l) :=
  (loopSimulation cfg l).reach h

/-! ## 束と仕事の対応 -/

/-- 積まれた仕事は、処理を待つ束か、一度処理した束のどちらかである。走り終えた仕事は処理してあり、渡す前の結果は、いま走っている
仕事のものである。 -/
structure Coupled (s : RpcServer ℓ ω) : Prop where
  counted : ∀ i, (s.connection i).jobs.count i.job + s.executed.count i = if (s.pool.submit i).queued then 1 else 0
  ran : ∀ w i, i ∈ s.pool.ran w → i ∈ s.executed
  posting : ∀ l n, ∀ entry ∈ ((s.loops l).objects n).posting, ∃ w i,
    s.pool.worker w = .run i ∧ i.loop = l ∧ i.connection = n ∧ i.job.batch = entry.1

theorem sameWork_loops (h : (rpcServer cfg).Reachable s) (henabled : enabled cfg s a)
    (hloop : ∀ b ∈ a.inLoop, b.2.touchesWork = false) (l : ℓ) : SameWork (s.loops l) ((next cfg s a).loops l) := by
  cases hact : a.onLoop l with
  | none =>
      rw [loops_next_of_none hact]
      exact .refl
  | some b =>
      rw [(loops_next_of_some henabled hact).2]
      refine sameWork_next (reachable_fresh (reachable_loop h l)) ?_
      obtain ⟨⟨m, b'⟩, hin, hbind⟩ := Option.bind_eq_some_iff.mp hact
      split at hbind
      next => exact Option.some.inj hbind ▸ hloop _ hin
      next => cases hbind

theorem pool_of_not_movesJob (henabled : enabled cfg s a) (hpool : ∀ b ∈ a.inPool, b.movesJob = false) :
    (∀ i, ((next cfg s a).pool.submit i).queued = (s.pool.submit i).queued) ∧
      (next cfg s a).pool.ran = s.pool.ran ∧
      ∀ w i, s.pool.worker w = .run i → (next cfg s a).pool.worker w = .run i := by
  cases hact : a.inPool with
  | none =>
      rw [pool_next_of_none hact]
      exact ⟨fun _ => rfl, rfl, fun _ _ h => h⟩
  | some b =>
      rw [pool_next_of_some hact]
      exact next_of_not_movesJob (henabled.1 b hact) (hpool b hact)

theorem Coupled.frame (hc : Coupled s) (h : (rpcServer cfg).Reachable s) (henabled : enabled cfg s a)
    (hpool : ∀ b ∈ a.inPool, b.movesJob = false) (hloop : ∀ b ∈ a.inLoop, b.2.touchesWork = false) :
    Coupled (next cfg s a) := by
  obtain ⟨hqueued, hran, hworker⟩ := pool_of_not_movesJob henabled hpool
  have hwork := sameWork_loops h henabled hloop
  have hexecuted : (next cfg s a).executed = s.executed := by
    cases a with
    | execute w i invoke => cases hloop _ rfl
    | _ => exact List.append_nil _
  refine ⟨fun i => ?_, fun w i hmem => ?_, fun l n entry hmem => ?_⟩
  · rw [hqueued, hexecuted, connection, (hwork i.loop i.connection).1]
    exact hc.counted i
  · rw [hexecuted]
    exact hc.ran w i (hran ▸ hmem)
  · rw [(hwork l n).2] at hmem
    obtain ⟨w, i, hrun, hplace⟩ := hc.posting l n entry hmem
    exact ⟨w, i, hworker w i hrun, hplace⟩

/-- 一つの実体だけが変わる動作。 -/
theorem objects_next {l : ℓ} {n : Nat} {b : ConnectionIoLoop.Act} {c : ServerConnection} (hact : a.inLoop = some (l, b))
    (hobjects : (ConnectionIoLoop.next cfg.connection (s.loops l) b).objects = update (s.loops l).objects n c)
    (m : ℓ) (k : Nat) :
    ((next cfg s a).loops m).objects k = if m = l ∧ k = n then c else ((s.loops m).objects k) := by
  simp only [next, hact, Option.elim_some]
  by_cases hm : m = l
  · subst hm
    rw [update_self, hobjects]
    by_cases hk : k = n
    · rw [hk, update_self, if_pos ⟨rfl, rfl⟩]
    · rw [update_of_ne hk, if_neg fun h => hk h.2]
  · rw [update_of_ne hm, if_neg fun h => hm h.1]

/-- 束 `i` だけが加わるか除かれるとき、ほかの束の数は変わらない。 -/
theorem count_jobs_next {i : JobId ℓ} {b : ConnectionIoLoop.Act} {c : ServerConnection}
    (hact : a.inLoop = some (i.loop, b))
    (hobjects : (ConnectionIoLoop.next cfg.connection (s.loops i.loop) b).objects =
      update (s.loops i.loop).objects i.connection c)
    (hjobs : ∀ job, job ≠ i.job → c.jobs.count job = (s.connection i).jobs.count job) {j : JobId ℓ} (hji : j ≠ i) :
    ((next cfg s a).connection j).jobs.count j.job = (s.connection j).jobs.count j.job := by
  rw [connection, objects_next hact hobjects]
  split
  next hsame =>
    rw [hjobs _ fun hjob => hji (JobId.ext hsame.1 hsame.2 hjob), connection, connection, hsame.1, hsame.2]
  next => rfl

/-- 束が列に積まれる。 -/
theorem Coupled.push (hc : Coupled s) {i : JobId ℓ} {w : ω} (henabled : enabled cfg s (.push i w)) :
    Coupled (next cfg s (.push i w)) := by
  have hsubmit : s.pool.submit i = .push w := henabled.1 _ rfl
  have hbatch : (s.connection i).submissions = i.job.batch := henabled.2.2
  have hjobs : (((s.loops i.loop).lend i.connection).submitAccepted i.job.requests).jobs =
      (s.connection i).jobs ++ [i.job] := by
    rw [show i.job = ⟨(s.connection i).submissions, i.job.requests⟩ by rw [hbatch]]
    rfl
  have hzero := hc.counted i
  rw [hsubmit, if_neg nofun] at hzero
  have hexecuted : (next cfg s (.push i w)).executed = s.executed := List.append_nil _
  refine ⟨fun j => ?_, fun v j hmem => hexecuted ▸ hc.ran v j hmem, fun l n entry hmem => ?_⟩
  · rw [hexecuted]
    by_cases hji : j = i
    · have hqueued : ((next cfg s (.push i w)).pool.submit i).queued = true := by
        rw [pool_next_of_some rfl]
        show (update s.pool.submit i (.unlock w true) i).queued = true
        rw [update_self]
        rfl
      rw [hji, hqueued, if_pos rfl, connection, objects_next rfl rfl, if_pos ⟨rfl, rfl⟩, hjobs, List.count_append,
        List.count_singleton_self]
      omega
    · have hqueued : ((next cfg s (.push i w)).pool.submit j).queued = (s.pool.submit j).queued := by
        rw [pool_next_of_some rfl]
        show (update s.pool.submit i (.unlock w true) j).queued = _
        rw [update_of_ne hji]
      rw [hqueued, count_jobs_next rfl rfl (fun job hne => ?_) hji]
      · exact hc.counted j
      · rw [hjobs, List.count_append, List.count_singleton, if_neg (by simpa using Ne.symm hne), Nat.add_zero]
  · rw [objects_next rfl rfl] at hmem
    refine hc.posting l n entry ?_
    split at hmem
    next hsame => rw [hsame.1, hsame.2]; exact hmem
    next => exact hmem

/-- 作業の糸が束を処理する。 -/
theorem Coupled.execute (hc : Coupled s) {w : ω} {i : JobId ℓ} {invoke : Request → Invocation}
    (henabled : enabled cfg s (.execute w i invoke)) : Coupled (next cfg s (.execute w i invoke)) := by
  have hmem : i.job ∈ (s.connection i).jobs := (henabled.2.1 _ rfl).2.2
  have hrun : s.pool.worker w = .run i := henabled.2.2
  have hpos := List.count_pos_iff.mpr hmem
  have hexecuted : (next cfg s (.execute w i invoke)).executed = s.executed ++ [i] := rfl
  refine ⟨fun j => ?_, fun v j hj => ?_, fun l n entry hentry => ?_⟩
  · rw [hexecuted, List.count_append, List.count_singleton]
    by_cases hji : j = i
    · have hcounted := hc.counted i
      rw [hji, connection, objects_next rfl rfl, if_pos ⟨rfl, rfl⟩, if_pos (by simp)]
      show ((s.connection i).jobs.erase i.job).count i.job + _ = if (s.pool.submit i).queued then 1 else 0
      rw [List.count_erase_self]
      omega
    · rw [count_jobs_next rfl rfl (fun job hne => ?_) hji, if_neg (by simpa using Ne.symm hji), Nat.add_zero]
      · exact hc.counted j
      · exact List.count_erase_of_ne hne
  · rw [hexecuted]
    exact List.mem_append_left _ (hc.ran v j hj)
  · rw [objects_next rfl rfl] at hentry
    split at hentry
    next hsame =>
      rcases List.mem_append.mp hentry with hentry | hentry
      · rw [hsame.1, hsame.2]
        exact hc.posting _ _ entry hentry
      · obtain ⟨result, _, rfl⟩ := List.mem_map.mp hentry
        exact ⟨w, i, hrun, hsame.1.symm, hsame.2.symm, rfl⟩
    next => exact hc.posting l n entry hentry

/-- 作業の糸が結果を渡す。 -/
theorem Coupled.post (hc : Coupled s) {w : ω} {i : JobId ℓ} {result : WorkerResult} :
    Coupled (next cfg s (.post w i result)) := by
  have hexecuted : (next cfg s (.post w i result)).executed = s.executed := List.append_nil _
  refine ⟨fun j => ?_, fun v j hj => hexecuted ▸ hc.ran v j hj, fun l n entry hentry => ?_⟩
  · rw [hexecuted]
    by_cases hji : j = i
    · rw [hji, connection, objects_next rfl rfl, if_pos ⟨rfl, rfl⟩]
      exact hc.counted i
    · rw [count_jobs_next rfl rfl (fun job _ => ?_) hji]
      · exact hc.counted j
      · rfl
  · rw [objects_next rfl rfl] at hentry
    refine hc.posting l n entry ?_
    split at hentry
    next hsame =>
      rw [hsame.1, hsame.2]
      exact List.mem_of_mem_eraseP hentry
    next => exact hentry

/-- 作業の糸が、束の処理から戻る。 -/
theorem Coupled.finishJob (hc : Coupled s) (h : (rpcServer cfg).Reachable s) {w : ω} {i : JobId ℓ}
    (henabled : enabled cfg s (.finishJob w i)) : Coupled (next cfg s (.finishJob w i)) := by
  have hrecorded := reachable_recorded (reachable_pool h)
  have hrun : s.pool.worker w = .run i := henabled.1 _ rfl
  obtain ⟨hdone, hposted⟩ : i.job ∉ (s.connection i).jobs ∧ _ := henabled.2.2
  have hexecuted : (next cfg s (.finishJob w i)).executed = s.executed := List.append_nil _
  refine ⟨fun j => hexecuted ▸ hc.counted j, fun v j hj => ?_, fun l n entry hentry => ?_⟩
  · rw [hexecuted]
    have hj : j ∈ update s.pool.ran w (s.pool.ran w ++ [i]) v := hj
    by_cases hvw : v = w
    · rw [hvw, update_self] at hj
      rcases List.mem_append.mp hj with hj | hj
      · exact hc.ran w j hj
      · have hpushed : i ∈ s.pool.pushed w := by
          rw [← hrecorded.order w, hrun]
          simp [WorkerPc.taken]
        have hcounted := hc.counted i
        rw [if_pos ((hrecorded.queued i).mp ⟨w, hpushed⟩), List.count_eq_zero.mpr hdone] at hcounted
        rw [List.mem_singleton.mp hj]
        exact List.count_pos_iff.mp (by omega)
    · rw [update_of_ne hvw] at hj
      exact hc.ran v j hj
  · obtain ⟨v, j, hrunning, hloop, hconnection, hbatch⟩ := hc.posting l n entry hentry
    have hvw : v ≠ w := by
      rintro rfl
      obtain rfl := WorkerPc.run.inj (hrun.symm.trans hrunning)
      subst hloop
      subst hconnection
      exact hposted entry hentry hbatch.symm
    exact ⟨v, j, (update_of_ne hvw _ _).trans hrunning, hloop, hconnection, hbatch⟩

theorem reachable_coupled (h : (rpcServer cfg).Reachable s) : Coupled s := by
  refine h.invariant (I := Coupled) ?_ fun s a hreach hc henabled _ => ?_
  · rintro _ rfl
    exact ⟨fun _ => rfl, nofun, nofun⟩
  cases a with
  | push i w => exact hc.push henabled
  | execute w i invoke => exact hc.execute henabled
  | post w i result => exact hc.post
  | finishJob w i => exact hc.finishJob hreach henabled
  | pool b =>
      refine hc.frame hreach henabled ?_ nofun
      rintro _ ⟨rfl⟩
      have hallows : s.allowsPool b := henabled.2.2
      cases b <;> first | rfl | exact hallows.elim
  | loop l b =>
      refine hc.frame hreach henabled nofun ?_
      rintro _ ⟨rfl⟩
      have hallows : allowsLoop b = true := henabled.2.2
      cases b <;> first | rfl | cases hallows
  | closeSubmissions | startupFailed | stopBeforeRun | completeShutdown | drainAndJoin =>
      exact hc.frame hreach henabled (by rintro _ ⟨rfl⟩; rfl) nofun
  | countAdmitted | submitFull | submitClosed | submitThrew | startLoop | dispatchAcceptedConnection | beginDrain
  | requestStop =>
      exact hc.frame hreach henabled nofun (by rintro _ ⟨rfl⟩; rfl)
  | _ => exact hc.frame hreach henabled nofun nofun

/-! ## 終了の手順 -/

end Xrpc.Server.RpcServer

namespace Xrpc.Server

/-- `DrainAndJoin` から戻っている。 -/
def RunPc.pastJoin {ℓ : Type} : RunPc ℓ → Bool
  | .finishing _ | .waiting _ _ | .requesting _ _ | .completed => true
  | _ => false

/-- 繰り返し `l` の `FinishDrain` が、生きている接続がないことを見ている。 -/
def RunPc.sawClosed {ℓ : Type} (l : ℓ) : RunPc ℓ → Prop
  | .finishing rest | .requesting _ rest => l ∉ rest
  | .waiting m rest => l ≠ m ∧ l ∉ rest
  | .completed => True
  | _ => False

namespace RpcServer
open Xrpc.Lib Function WorkerPool ConnectionIoLoop

variable {ℓ ω : Type} [DecidableEq ℓ] [DecidableEq ω] {cfg : ServerConfig ℓ ω} {s : RpcServer ℓ ω} {a : Act ℓ ω}

/-- `FinishDrain` が待ち終えた繰り返しと、停止を求められた繰り返しでは、すべての接続が閉じている。 -/
structure Stopping (s : RpcServer ℓ ω) : Prop where
  closing : Closing s.pool.drainRequested s.pool.closer
  joined : s.run.pastJoin = true → s.pool.closer .drain = .joined
  waiting : ∀ l rest, s.run = .waiting l rest → (s.loops l).state.left = true
  requesting : ∀ l rest, s.run = .requesting l rest → AllClosed (s.loops l)
  closed : ∀ l, s.run.sawClosed l → AllClosed (s.loops l)
  stopped : ∀ l, (s.loops l).stopRequested = true → AllClosed (s.loops l)

theorem allClosed_next (h : (rpcServer cfg).Reachable s) (henabled : enabled cfg s a) {l : ℓ}
    (hclosed : AllClosed (s.loops l)) : AllClosed ((next cfg s a).loops l) := by
  cases hact : a.onLoop l with
  | none =>
      rw [loops_next_of_none hact]
      exact hclosed
  | some b =>
      obtain ⟨hb, hnext⟩ := loops_next_of_some henabled hact
      rw [hnext]
      exact hclosed.next (reachable_loopInv (reachable_loop h l)) hb.2

theorem left_next (henabled : enabled cfg s a) {l : ℓ} (hleft : (s.loops l).state.left = true) :
    ((next cfg s a).loops l).state.left = true := by
  cases hact : a.onLoop l with
  | none =>
      rw [loops_next_of_none hact]
      exact hleft
  | some b =>
      obtain ⟨hb, hnext⟩ := loops_next_of_some henabled hact
      rw [hnext, state_next_of_left hleft hb.2]
      exact hleft

theorem closing_next (h : Closing s.pool.drainRequested s.pool.closer) (henabled : enabled cfg s a) :
    Closing (next cfg s a).pool.drainRequested (next cfg s a).pool.closer := by
  cases hact : a.inPool with
  | none =>
      rw [pool_next_of_none hact]
      exact h
  | some b =>
      rw [pool_next_of_some hact]
      refine h.next (henabled.1 b hact) fun k drain hb => ?_
      subst hb
      cases a with
      | pool b =>
          obtain rfl := Option.some.inj hact
          exact henabled.2.2.elim
      | closeSubmissions | startupFailed | stopBeforeRun | completeShutdown | drainAndJoin => cases hact; rfl
      | _ => cases hact

theorem closer_joined_next (henabled : enabled cfg s a) (h : s.pool.closer .drain = .joined) :
    (next cfg s a).pool.closer .drain = .joined := by
  cases hact : a.inPool with
  | none =>
      rw [pool_next_of_none hact]
      exact h
  | some b =>
      rw [pool_next_of_some hact]
      exact joined_next h (henabled.1 b hact)

/-- 停止を求めるのは、`FinishDrain` だけである。 -/
theorem stopRequested_loops_next (henabled : enabled cfg s a) {l : ℓ} (hstop : ∀ rest, a ≠ .requestStop l rest) :
    ((next cfg s a).loops l).stopRequested = (s.loops l).stopRequested := by
  cases hact : a.onLoop l with
  | none => rw [loops_next_of_none hact]
  | some b =>
      rw [(loops_next_of_some henabled hact).2]
      refine stopRequested_next ?_
      rintro rfl
      obtain ⟨⟨m, b⟩, hin, hbind⟩ := Option.bind_eq_some_iff.mp hact
      split at hbind
      next hm =>
        obtain rfl := Option.some.inj hbind
        cases a with
        | loop k b =>
            obtain ⟨rfl, rfl⟩ := Prod.mk.inj (Option.some.inj hin)
            cases (show allowsLoop .requestStop = true from henabled.2.2)
        | requestStop k rest =>
            obtain ⟨rfl, _⟩ := Prod.mk.inj (Option.some.inj hin)
            exact hstop rest (by rw [show k = l from hm])
        | _ => cases hin
      next => cases hbind

theorem Stopping.setRun (hs : Stopping s) (h : (rpcServer cfg).Reachable s) (henabled : enabled cfg s a)
    (hjoined : (nextRun cfg s a).pastJoin = true → s.pool.closer .drain = .joined)
    (hwaiting : ∀ l rest, nextRun cfg s a = .waiting l rest → ((next cfg s a).loops l).state.left = true)
    (hrequesting : ∀ l rest, nextRun cfg s a = .requesting l rest → AllClosed (s.loops l))
    (hclosed : ∀ l, (nextRun cfg s a).sawClosed l → AllClosed (s.loops l))
    (hstop : ∀ l rest, a = .requestStop l rest → AllClosed (s.loops l)) : Stopping (next cfg s a) where
  closing := closing_next hs.closing henabled
  joined hpast := closer_joined_next henabled (hjoined hpast)
  waiting := hwaiting
  requesting l rest hrun := allClosed_next h henabled (hrequesting l rest hrun)
  closed l hsaw := allClosed_next h henabled (hclosed l hsaw)
  stopped l hstopped := by
    refine allClosed_next h henabled ?_
    by_cases hact : ∃ rest, a = .requestStop l rest
    · obtain ⟨rest, hact⟩ := hact
      exact hstop l rest hact
    · rw [stopRequested_loops_next henabled (not_exists.mp hact)] at hstopped
      exact hs.stopped l hstopped

/-- `BeginDrain` の後の位置では、繰り返しは `Running` を離れている。 -/
theorem Stopping.afterBeginDrain (hs : Stopping s) (h : (rpcServer cfg).Reachable s) (henabled : enabled cfg s a)
    {l : ℓ} {rest : List ℓ} (hrun : s.run.beginsDrain l rest) (hnext : nextRun cfg s a = s.run.afterBeginDrain l rest)
    (hstop : ∀ l rest, a ≠ .requestStop l rest) (hleft : ((next cfg s a).loops l).state.left = true) :
    Stopping (next cfg s a) := by
  rcases hrun with hrun | hrun
  · rw [hrun] at hnext
    have hnext : nextRun cfg s a = .beginning rest := hnext
    exact hs.setRun h henabled (by rw [hnext]; nofun) (by rw [hnext]; nofun) (by rw [hnext]; nofun)
      (by rw [hnext]; nofun) fun l rest hact => absurd hact (hstop l rest)
  · rw [hrun] at hnext
    have hnext : nextRun cfg s a = .waiting l rest := hnext
    refine hs.setRun h henabled (fun _ => hs.joined (by rw [hrun]; rfl)) (fun m others hwaiting => ?_)
      (by rw [hnext]; nofun) (fun m hsaw => hs.closed m ?_) fun l rest hact => absurd hact (hstop l rest)
    · rw [hnext] at hwaiting
      obtain ⟨rfl, _⟩ := RunPc.waiting.inj hwaiting
      exact hleft
    · rw [hnext] at hsaw
      rw [hrun]
      exact List.not_mem_cons_of_ne_of_not_mem hsaw.1 hsaw.2

theorem Stopping.next (hs : Stopping s) (h : (rpcServer cfg).Reachable s) (henabled : enabled cfg s a) :
    Stopping (next cfg s a) := by
  cases a with
  | startConnectionLoops | startLoop | serve | startupFailed | stopBeforeRun | closeSubmissions | stopAcceptingOnContext
  | completeShutdown | beginConnectionDrain | drainAndJoin =>
      exact hs.setRun h henabled (by rintro ⟨⟩) (by rintro _ _ ⟨⟩) (by rintro _ _ ⟨⟩)
        (by rintro _ ⟨⟩) (by rintro _ _ ⟨⟩)
  | beginDrain l rest =>
      refine hs.afterBeginDrain h henabled henabled.2.2 rfl (by rintro _ _ ⟨⟩) ?_
      simp only [RpcServer.next, Act.inLoop, Option.elim_some, update_self, ConnectionIoLoop.next]
      split <;> rfl
  | alreadyDraining l rest =>
      obtain ⟨hrun, hcreated, hrunning⟩ : s.run.beginsDrain l rest ∧ _ := henabled.2.2
      refine hs.afterBeginDrain h henabled hrun rfl (by rintro _ _ ⟨⟩) ?_
      show (s.loops l).state.left = true
      cases hstate : (s.loops l).state with
      | created => exact absurd hstate hcreated
      | running => exact absurd hstate hrunning
      | _ => rfl
  | finishConnectionDrain =>
      obtain ⟨_, hreturned⟩ : s.run = .joining ∧ _ := henabled.2.2
      exact hs.setRun h henabled (fun _ => hs.closing.joined hreturned) (by rintro _ _ ⟨⟩) (by rintro _ _ ⟨⟩)
        (fun l hsaw => absurd (cfg.mem_loops l) hsaw) (by rintro _ _ ⟨⟩)
  | alreadyStopped l rest =>
      obtain ⟨hrun, hstate⟩ : s.run = .waiting l rest ∧ _ := henabled.2.2
      refine hs.setRun h henabled (fun _ => hs.joined (by rw [hrun]; rfl)) (by rintro _ _ ⟨⟩) (by rintro _ _ ⟨⟩)
        (fun m hsaw => ?_) (by rintro _ _ ⟨⟩)
      by_cases hml : m = l
      · have hzero := reachable_unstarted (reachable_loop h m) (.inr (hml ▸ hstate))
        exact ⟨by rw [hml, hstate]; rfl, fun n hn => absurd hn (by omega)⟩
      · exact hs.closed m (by rw [hrun]; exact ⟨hml, hsaw⟩)
  | waited l rest =>
      obtain ⟨hrun, _, hlive⟩ : s.run = .waiting l rest ∧ _ := henabled.2.2
      have hclosed : AllClosed (s.loops l) :=
        (reachable_loopInv (reachable_loop h l)).allClosed (hs.waiting l rest hrun) hlive
      refine hs.setRun h henabled (fun _ => hs.joined (by rw [hrun]; rfl)) (by rintro _ _ ⟨⟩) ?_ (fun m hsaw => ?_)
        (by rintro _ _ ⟨⟩)
      · rintro _ _ ⟨rfl, rfl⟩
        exact hclosed
      · by_cases hml : m = l
        · rw [hml]
          exact hclosed
        · exact hs.closed m (by rw [hrun]; exact ⟨hml, hsaw⟩)
  | requestStop l rest =>
      have hrun : s.run = .requesting l rest := henabled.2.2
      refine hs.setRun h henabled (fun _ => hs.joined (by rw [hrun]; rfl)) (by rintro _ _ ⟨⟩) (by rintro _ _ ⟨⟩)
        (fun m hsaw => hs.closed m (by rw [hrun]; exact hsaw)) ?_
      rintro _ _ ⟨rfl, rfl⟩
      exact hs.requesting l rest hrun
  | complete =>
      have hrun : s.run = .finishing [] := henabled.2.2
      exact hs.setRun h henabled (fun _ => hs.joined (by rw [hrun]; rfl)) (by rintro _ _ ⟨⟩) (by rintro _ _ ⟨⟩)
        (fun m _ => hs.closed m (by rw [hrun]; exact List.not_mem_nil)) (by rintro _ _ ⟨⟩)
  | _ =>
      exact hs.setRun h henabled hs.joined (fun l rest hrun => left_next henabled (hs.waiting l rest hrun)) hs.requesting
        hs.closed (by rintro _ _ ⟨⟩)

theorem reachable_stopping (h : (rpcServer cfg).Reachable s) : Stopping s := by
  refine h.invariant (I := Stopping) ?_ fun _ _ hreach hs henabled _ => hs.next hreach henabled
  rintro _ rfl
  exact ⟨⟨fun _ => .inl rfl, nofun⟩, nofun, nofun, nofun, nofun, nofun⟩

/-! ## 手順の終わり -/

/-- `Running` を離れた繰り返しには、どの実行でも接続が加わらない。 -/
theorem steps_of_left {s' : RpcServer ℓ ω} (h : (rpcServer cfg).Reachable s)
    (hsteps : (rpcServer cfg).Steps (fun _ _ => True) s s') {l : ℓ} (hleft : (s.loops l).state.left = true) :
    (s'.loops l).created = (s.loops l).created ∧ ∀ entry ∈ (s'.loops l).connections, entry ∈ (s.loops l).connections := by
  have hkeep := hsteps.preserves (I := fun t => (t.loops l).state.left = true ∧ (t.loops l).created = (s.loops l).created ∧
    ∀ entry ∈ (t.loops l).connections, entry ∈ (s.loops l).connections) h ?_ ⟨hleft, rfl, fun _ hentry => hentry⟩
  · exact hkeep.2
  · intro t a _ ⟨hleft, hcreated, hconnections⟩ henabled _
    refine ⟨left_next henabled hleft, ?_⟩
    show ((RpcServer.next cfg t a).loops l).created = _ ∧ ∀ entry ∈ ((RpcServer.next cfg t a).loops l).connections, _
    cases hact : a.onLoop l with
    | none =>
        rw [loops_next_of_none hact]
        exact ⟨hcreated, hconnections⟩
    | some b =>
        rw [(loops_next_of_some henabled hact).2]
        have hsame := created_next cfg.connection (ne_running_of_left hleft) b
        exact ⟨hsame.1.trans hcreated, fun entry hentry => hconnections entry (hsame.2 entry hentry)⟩

theorem mem_executed_iff (hc : Coupled s) (h : (rpcServer cfg).Reachable s) (hjoined : s.pool.closer .drain = .joined)
    (i : JobId ℓ) : i ∈ s.executed ↔ ∃ w, i ∈ s.pool.pushed w := by
  have hcounted := hc.counted i
  have hrecorded := reachable_recorded (reachable_pool h)
  constructor
  · intro hmem
    have hpos := List.count_pos_iff.mpr hmem
    rw [hrecorded.queued i]
    by_contra hne
    rw [if_neg hne] at hcounted
    omega
  · rintro ⟨w, hmem⟩
    rw [← (ran_of_joined (reachable_pool h) hjoined w).1] at hmem
    exact hc.ran w i hmem

/-- 作業の糸が終わった後、どの接続にも、処理を待つ束も、渡す前の結果もない。 -/
theorem work_of_joined (h : (rpcServer cfg).Reachable s) (hjoined : s.pool.closer .drain = .joined) {l : ℓ} {n : Nat}
    (hn : n < (s.loops l).created) :
    ((s.loops l).objects n).jobs = [] ∧ ((s.loops l).objects n).posting = [] := by
  have hc := reachable_coupled h
  obtain ⟨_, _, hobject⟩ := (reachable_loopInv (reachable_loop h l)).objects n hn
  refine ⟨List.eq_nil_iff_forall_not_mem.mpr fun job hmem => ?_, List.eq_nil_iff_forall_not_mem.mpr fun entry hmem => ?_⟩
  · have hcounted := hc.counted ⟨l, n, job, hobject.requests.jobs job hmem⟩
    have hpos : 0 < ((s.loops l).objects n).jobs.count job := List.count_pos_iff.mpr hmem
    have hexecuted : 0 < s.executed.count ⟨l, n, job, hobject.requests.jobs job hmem⟩ := by
      refine List.count_pos_iff.mpr ((mem_executed_iff hc h hjoined _).mpr ?_)
      rw [(reachable_recorded (reachable_pool h)).queued]
      by_contra hne
      rw [if_neg hne] at hcounted
      dsimp only [connection] at hcounted
      omega
    dsimp only [connection] at hcounted
    split at hcounted <;> omega
  · obtain ⟨w, i, hrun, _⟩ := hc.posting l n entry hmem
    have hexited := (reachable_shut (reachable_pool h)).joined _ hjoined w
    rw [hrun] at hexited
    cases hexited

end RpcServer

end Xrpc.Server
