import Xrpc.Server.WorkerPool

/-!
# 作業の糸の集まりの不変条件
-/

namespace Xrpc.Server.WorkerPool
open Xrpc.Lib Function

variable {ι ω κ : Type} [DecidableEq ι] [DecidableEq ω] [DecidableEq κ] {cfg : Config ι ω} {s : State ι ω κ}

/-! ## 排他 -/

/-- 排他を握っている列。 -/
def SubmitPc.holds : SubmitPc ω → Option ω
  | .recheck w | .rollback w | .push w | .unlock w _ | .unwind w => some w
  | _ => none

def WorkerPc.holds : WorkerPc ι → Bool
  | .test | .pop | .unlock _ | .exiting => true
  | _ => false

/-- 排他の区間にいる者は、その列の排他を握っている。 -/
structure Locked (submit : ι → SubmitPc ω) (worker : ω → WorkerPc ι) (mutex : ω → Option (Holder ι)) : Prop where
  submitter : ∀ i w, (submit i).holds = some w → mutex w = some (.submitter i)
  worker : ∀ w, (worker w).holds = true → mutex w = some .worker

namespace Locked

variable {submit : ι → SubmitPc ω} {worker : ω → WorkerPc ι} {mutex : ω → Option (Holder ι)}

omit [DecidableEq ω] in
theorem keepSubmit (h : Locked submit worker mutex) {i : ι} {pc : SubmitPc ω} (hpc : pc.holds = (submit i).holds) :
    Locked (update submit i pc) worker mutex := by
  refine { h with submitter := fun j w hj => ?_ }
  by_cases hji : j = i
  · subst hji
    rw [update_self, hpc] at hj
    exact h.submitter j w hj
  · rw [update_of_ne hji] at hj
    exact h.submitter j w hj

omit [DecidableEq ι] in
theorem keepWorker (h : Locked submit worker mutex) {w : ω} {pc : WorkerPc ι} (hpc : pc.holds = (worker w).holds) :
    Locked submit (update worker w pc) mutex := by
  refine { h with worker := fun v hv => ?_ }
  by_cases hvw : v = w
  · subst hvw
    rw [update_self, hpc] at hv
    exact h.worker v hv
  · rw [update_of_ne hvw] at hv
    exact h.worker v hv

omit [DecidableEq ι] [DecidableEq ω] in
/-- 空いている排他を、誰も握っていない。 -/
theorem not_held (h : Locked submit worker mutex) {w : ω} (hfree : mutex w = none) :
    (∀ i, (submit i).holds ≠ some w) ∧ (worker w).holds = false := by
  refine ⟨fun i hi => ?_, ?_⟩
  · rw [h.submitter i w hi] at hfree
    cases hfree
  · by_contra hne
    rw [h.worker w (by simpa using hne)] at hfree
    cases hfree

theorem acquireSubmit (h : Locked submit worker mutex) {i : ι} {w : ω} {pc : SubmitPc ω} (hfree : mutex w = none)
    (hpc : pc.holds = some w) : Locked (update submit i pc) worker (update mutex w (some (.submitter i))) := by
  obtain ⟨hsubmit, hworker⟩ := h.not_held hfree
  constructor
  · intro j v hj
    by_cases hji : j = i
    · subst hji
      rw [update_self, hpc] at hj
      obtain rfl := Option.some.inj hj
      exact update_self _ _ _
    · rw [update_of_ne hji] at hj
      rw [update_of_ne (fun hvw : v = w => hsubmit j (hvw ▸ hj))]
      exact h.submitter j v hj
  · intro v hv
    have hvw : v ≠ w := by
      rintro rfl
      rw [hworker] at hv
      cases hv
    rw [update_of_ne hvw]
    exact h.worker v hv

omit [DecidableEq ι] in
theorem acquireWorker (h : Locked submit worker mutex) {w : ω} {pc : WorkerPc ι} (hfree : mutex w = none) :
    Locked submit (update worker w pc) (update mutex w (some .worker)) := by
  obtain ⟨hsubmit, _⟩ := h.not_held hfree
  constructor
  · intro j v hj
    rw [update_of_ne (fun hvw : v = w => hsubmit j (hvw ▸ hj))]
    exact h.submitter j v hj
  · intro v hv
    by_cases hvw : v = w
    · subst hvw
      exact update_self _ _ _
    · rw [update_of_ne hvw] at hv ⊢
      exact h.worker v hv

theorem releaseSubmit (h : Locked submit worker mutex) {i : ι} {w : ω} {pc : SubmitPc ω}
    (hold : (submit i).holds = some w) (hpc : pc.holds = none) :
    Locked (update submit i pc) worker (update mutex w none) := by
  have howner := h.submitter i w hold
  constructor
  · intro j v hj
    by_cases hji : j = i
    · subst hji
      rw [update_self, hpc] at hj
      cases hj
    · rw [update_of_ne hji] at hj
      have hvw : v ≠ w := by
        rintro rfl
        rw [h.submitter j v hj] at howner
        cases howner
        exact hji rfl
      rw [update_of_ne hvw]
      exact h.submitter j v hj
  · intro v hv
    have hvw : v ≠ w := by
      rintro rfl
      rw [h.worker v hv] at howner
      cases howner
    rw [update_of_ne hvw]
    exact h.worker v hv

omit [DecidableEq ι] in
theorem releaseWorker (h : Locked submit worker mutex) {w : ω} {pc : WorkerPc ι} (hold : (worker w).holds = true)
    (hpc : pc.holds = false) : Locked submit (update worker w pc) (update mutex w none) := by
  have howner := h.worker w hold
  constructor
  · intro j v hj
    have hvw : v ≠ w := by
      rintro rfl
      rw [h.submitter j v hj] at howner
      cases howner
    rw [update_of_ne hvw]
    exact h.submitter j v hj
  · intro v hv
    by_cases hvw : v = w
    · subst hvw
      rw [update_self, hpc] at hv
      cases hv
    · rw [update_of_ne hvw] at hv ⊢
      exact h.worker v hv

end Locked

theorem reachable_locked (h : (workerPool κ cfg).Reachable s) : Locked s.submit s.worker s.mutex := by
  refine h.invariant (I := fun s => Locked s.submit s.worker s.mutex) ?_ ?_
  · rintro _ rfl
    exact ⟨nofun, nofun⟩
  intro s a _ hs hb _
  cases a with
  | check i | refuseClosed i | refuseFull i p | reserve i p | retry i p =>
      exact hs.keepSubmit (by rw [hb.1]; rfl)
  | load i | select i w | rollback i w | push i w | throwPush i w | release i =>
      exact hs.keepSubmit (by rw [show s.submit i = _ from hb]; rfl)
  | lock i w => exact hs.acquireSubmit hb.2 rfl
  | recheck i w =>
      refine hs.keepSubmit ?_
      rw [show s.submit i = _ from hb]
      split <;> rfl
  | unlock i w _ | unwind i w => exact hs.releaseSubmit (by rw [show s.submit i = _ from hb]; rfl) rfl
  | workerLock w => exact hs.acquireWorker hb.2
  | workerNonEmpty w | workerDrained w | workerPop w i => exact hs.keepWorker (by rw [hb.1]; rfl)
  | workerSleep w => exact hs.releaseWorker (by rw [hb.1]; rfl) rfl
  | workerWake w | workerRun w i | workerSubtract w i | workerRelease w i =>
      exact hs.keepWorker (by rw [show s.worker w = _ from hb]; rfl)
  | workerUnlock w i | workerExit w => exact hs.releaseWorker (by rw [show s.worker w = _ from hb]; rfl) rfl
  | _ => exact hs

/-! ## 積んだ仕事と走らせた仕事 -/

/-- 列に積んだ仕事は、走らせたもの、取り出したもの、列に残るものの順に並ぶ。積んだ呼び出しは、真を返すものである。 -/
structure Recorded (submit : ι → SubmitPc ω) (worker : ω → WorkerPc ι) (jobs pushed ran : ω → List ι) : Prop where
  order : ∀ w, ran w ++ (worker w).taken ++ jobs w = pushed w
  queued : ∀ i, (∃ w, i ∈ pushed w) ↔ (submit i).queued = true
  unique : ∀ i w v, i ∈ pushed w → i ∈ pushed v → w = v
  nodup : ∀ w, (pushed w).Nodup

namespace Recorded

variable {submit : ι → SubmitPc ω} {worker : ω → WorkerPc ι} {jobs pushed ran : ω → List ι}

omit [DecidableEq ω] in
theorem setSubmit (h : Recorded submit worker jobs pushed ran) {i : ι} {pc : SubmitPc ω}
    (hpc : pc.queued = (submit i).queued) : Recorded (update submit i pc) worker jobs pushed ran := by
  refine { h with queued := fun j => ?_ }
  by_cases hji : j = i
  · subst hji
    rw [update_self, hpc, h.queued]
  · rw [update_of_ne hji, h.queued]

omit [DecidableEq ι] in
theorem setWorker (h : Recorded submit worker jobs pushed ran) {w : ω} {pc : WorkerPc ι}
    (hpc : pc.taken = (worker w).taken) : Recorded submit (update worker w pc) jobs pushed ran := by
  refine { h with order := fun v => ?_ }
  by_cases hvw : v = w
  · subst hvw
    rw [update_self, hpc, h.order]
  · rw [update_of_ne hvw, h.order]

/-- 積む呼び出しは、まだどの列にもない。 -/
theorem push (h : Recorded submit worker jobs pushed ran) {i : ι} {w : ω} (hi : (submit i).queued = false) :
    Recorded (update submit i (.unlock w true)) worker (update jobs w (jobs w ++ [i]))
      (update pushed w (pushed w ++ [i])) ran := by
  have hnot : ∀ v, i ∉ pushed v := by
    intro v hmem
    rw [(h.queued i).mp ⟨v, hmem⟩] at hi
    cases hi
  have hmem : ∀ {j v}, j ∈ update pushed w (pushed w ++ [i]) v ↔ j ∈ pushed v ∨ (v = w ∧ j = i) := by
    intro j v
    by_cases hvw : v = w
    · subst hvw
      simp
    · simp [hvw]
  constructor
  · intro v
    by_cases hvw : v = w
    · subst hvw
      rw [update_self, update_self, ← h.order v, ← List.append_assoc]
    · rw [update_of_ne hvw, update_of_ne hvw, h.order v]
  · intro j
    simp only [hmem]
    by_cases hji : j = i
    · subst hji
      rw [update_self]
      exact iff_of_true ⟨w, .inr ⟨rfl, rfl⟩⟩ rfl
    · rw [update_of_ne hji, ← h.queued j]
      simp [hji]
  · intro j v v' hv hv'
    rcases hmem.mp hv with hold | ⟨hvw, hji⟩
    · rcases hmem.mp hv' with hold' | ⟨_, hji⟩
      · exact h.unique j v v' hold hold'
      · exact absurd hold (hji ▸ hnot v)
    · rcases hmem.mp hv' with hold' | ⟨hvw', _⟩
      · exact absurd hold' (hji ▸ hnot v')
      · rw [hvw, hvw']
  · intro v
    by_cases hvw : v = w
    · subst hvw
      rw [update_self]
      exact List.nodup_append.mpr ⟨h.nodup v, List.nodup_singleton i, fun j hj k hk hjk => hnot v (by
        rw [List.mem_singleton] at hk; exact hk ▸ hjk ▸ hj)⟩
    · rw [update_of_ne hvw]
      exact h.nodup v

omit [DecidableEq ι] in
theorem pop (h : Recorded submit worker jobs pushed ran) {i : ι} {w : ω} (hworker : (worker w).taken = [])
    (hhead : (jobs w).head? = some i) :
    Recorded submit (update worker w (.unlock i)) (update jobs w (jobs w).tail) pushed ran := by
  refine { h with order := fun v => ?_ }
  by_cases hvw : v = w
  · subst hvw
    obtain ⟨rest, hrest⟩ := List.head?_eq_some_iff.mp hhead
    have horder := h.order v
    rw [hworker, hrest] at horder
    rw [update_self, update_self, hrest, ← horder]
    simp [WorkerPc.taken]
  · rw [update_of_ne hvw, update_of_ne hvw, h.order v]

omit [DecidableEq ι] in
theorem run (h : Recorded submit worker jobs pushed ran) {i : ι} {w : ω} (hworker : worker w = .run i) :
    Recorded submit (update worker w (.subtract i)) jobs pushed (update ran w (ran w ++ [i])) := by
  refine { h with order := fun v => ?_ }
  by_cases hvw : v = w
  · subst hvw
    have horder := h.order v
    rw [hworker] at horder
    rw [update_self, update_self, ← horder]
    simp [WorkerPc.taken]
  · rw [update_of_ne hvw, update_of_ne hvw, h.order v]

end Recorded

theorem reachable_recorded (h : (workerPool κ cfg).Reachable s) :
    Recorded s.submit s.worker s.jobs s.pushed s.ran := by
  refine h.invariant (I := fun s => Recorded s.submit s.worker s.jobs s.pushed s.ran) ?_ ?_
  · rintro _ rfl
    exact ⟨fun _ => rfl, fun i => iff_of_false (fun ⟨_, hmem⟩ => nomatch hmem) nofun, nofun, fun _ => List.nodup_nil⟩
  intro s a _ hs hb _
  cases a with
  | check i | refuseClosed i | refuseFull i p | reserve i p | retry i p | lock i w =>
      exact hs.setSubmit (by rw [hb.1]; rfl)
  | load i | select i w | rollback i w | throwPush i w | unwind i w | release i =>
      exact hs.setSubmit (by rw [show s.submit i = _ from hb]; rfl)
  | unlock i w b =>
      refine hs.setSubmit ?_
      rw [show s.submit i = _ from hb]
      cases b <;> rfl
  | recheck i w =>
      refine hs.setSubmit ?_
      rw [show s.submit i = _ from hb]
      split <;> rfl
  | push i w => exact hs.push (by rw [show s.submit i = _ from hb]; rfl)
  | workerLock w | workerNonEmpty w | workerDrained w | workerSleep w => exact hs.setWorker (by rw [hb.1]; rfl)
  | workerWake w | workerUnlock w i | workerSubtract w i | workerRelease w i | workerExit w =>
      exact hs.setWorker (by rw [show s.worker w = _ from hb]; rfl)
  | workerPop w i => exact hs.pop (by rw [hb.1]; rfl) hb.2
  | workerRun w i => exact hs.run hb
  | _ => exact hs

/-! ## 受け付けの終わり -/

/-- 受け付けを終え、列 `w` の排他を通り過ぎている。 -/
def CloserPc.swept (w : ω) : CloserPc ω → Bool
  | .sweep _ rest => w ∉ rest
  | pc => pc.hasClosed

def CloserPc.stored : CloserPc ω → Bool
  | .idle | .store _ => false
  | _ => true

def WorkerPc.finished : WorkerPc ι → Bool
  | .exiting | .exited => true
  | _ => false

theorem CloserPc.swept_of_hasClosed {w : ω} {pc : CloserPc ω} (h : pc.hasClosed = true) : pc.swept w = true := by
  cases pc with
  | sweep _ _ => cases h
  | _ => exact h

omit [DecidableEq ω] in
theorem CloserPc.stored_of_hasClosed {pc : CloserPc ω} (h : pc.hasClosed = true) : pc.stored = true := by
  cases pc with
  | idle | store _ => cases h
  | _ => rfl

theorem CloserPc.stored_of_swept {w : ω} {pc : CloserPc ω} (h : pc.swept w = true) : pc.stored = true := by
  cases pc with
  | idle | store _ => cases h
  | _ => rfl

/-- 受け付けを終えた者が通り過ぎた列に、積もうとしている者はいない。終わった糸の列は空である。 -/
structure Shut (accepting drainRequested : Bool) (submit : ι → SubmitPc ω) (worker : ω → WorkerPc ι) (jobs : ω → List ι)
    (closer : κ → CloserPc ω) : Prop where
  stored : ∀ k, (closer k).stored = true → accepting = false
  swept : ∀ k w, (closer k).swept w = true → ∀ i, submit i ≠ .push w
  drained : drainRequested = true → accepting = false ∧ ∀ i w, submit i ≠ .push w
  exited : ∀ w, (worker w).finished = true → drainRequested = true ∧ jobs w = []
  joining : ∀ k rest, closer k = .join rest → ∀ w, w ∉ rest → worker w = .exited
  joined : ∀ k, closer k = .joined → ∀ w, worker w = .exited

namespace Shut

variable {accepting drainRequested : Bool} {submit : ι → SubmitPc ω} {worker : ω → WorkerPc ι} {jobs : ω → List ι}
  {closer : κ → CloserPc ω}

omit [DecidableEq κ] in
theorem setSubmit (h : Shut accepting drainRequested submit worker jobs closer) (i : ι) {pc : SubmitPc ω}
    (hpc : ∀ w, pc = .push w → accepting = true) :
    Shut accepting drainRequested (update submit i pc) worker jobs closer := by
  have hpush : accepting = false → ∀ w, (∀ j, submit j ≠ .push w) → ∀ j, update submit i pc j ≠ .push w := by
    intro hclosed w hold j hj
    by_cases hji : j = i
    · subst hji
      rw [update_self] at hj
      rw [hpc w hj] at hclosed
      cases hclosed
    · rw [update_of_ne hji] at hj
      exact hold j hj
  refine { h with
    swept := fun k w hk => hpush (h.stored k (CloserPc.stored_of_swept hk)) w (h.swept k w hk)
    drained := fun hdrain => ?_ }
  · obtain ⟨hclosed, hold⟩ := h.drained hdrain
    exact ⟨hclosed, fun j w => hpush hclosed w (fun j => hold j w) j⟩

omit [DecidableEq ι] [DecidableEq κ] in
theorem setWorker (h : Shut accepting drainRequested submit worker jobs closer) {w : ω} {pc : WorkerPc ι}
    (hold : worker w ≠ .exited) (hpc : pc.finished = true → drainRequested = true ∧ jobs w = []) :
    Shut accepting drainRequested submit (update worker w pc) jobs closer := by
  have hkeep : ∀ {v}, worker v = .exited → update worker w pc v = .exited := by
    intro v hv
    rw [update_of_ne (by rintro rfl; exact hold hv), hv]
  refine { h with
    exited := fun v hv => ?_
    joining := fun k rest hk v hv => hkeep (h.joining k rest hk v hv)
    joined := fun k hk v => hkeep (h.joined k hk v) }
  by_cases hvw : v = w
  · subst hvw
    rw [update_self] at hv
    exact hpc hv
  · rw [update_of_ne hvw] at hv
    exact h.exited v hv

omit [DecidableEq ι] [DecidableEq κ] in
theorem setJobs (h : Shut accepting drainRequested submit worker jobs closer) {w : ω} (jobs' : List ι)
    (hw : drainRequested = true → (worker w).finished = false) :
    Shut accepting drainRequested submit worker (update jobs w jobs') closer := by
  refine { h with exited := fun v hv => ?_ }
  obtain ⟨hdrain, hjobs⟩ := h.exited v hv
  refine ⟨hdrain, (update_of_ne ?_ _ _).trans hjobs⟩
  rintro rfl
  rw [hw hdrain] at hv
  cases hv

omit [DecidableEq ι] in
theorem setCloser (h : Shut accepting drainRequested submit worker jobs closer) {k : κ} {pc : CloserPc ω}
    (hstored : pc.stored = true → accepting = false) (hswept : ∀ w, pc.swept w = true → ∀ i, submit i ≠ .push w)
    (hjoining : ∀ rest, pc = .join rest → ∀ w, w ∉ rest → worker w = .exited)
    (hjoined : pc = .joined → ∀ w, worker w = .exited) :
    Shut accepting drainRequested submit worker jobs (update closer k pc) := by
  have hcases : ∀ j, (j = k ∧ update closer k pc j = pc) ∨ update closer k pc j = closer j := by
    intro j
    by_cases hjk : j = k
    · subst hjk
      exact .inl ⟨rfl, update_self _ _ _⟩
    · exact .inr (update_of_ne hjk _ _)
  refine { h with stored := ?_, swept := ?_, joining := ?_, joined := ?_ }
  · intro j hj
    rcases hcases j with ⟨_, heq⟩ | heq
    · rw [heq] at hj
      exact hstored hj
    · rw [heq] at hj
      exact h.stored j hj
  · intro j w hj
    rcases hcases j with ⟨_, heq⟩ | heq
    · rw [heq] at hj
      exact hswept w hj
    · rw [heq] at hj
      exact h.swept j w hj
  · intro j rest hj
    rcases hcases j with ⟨_, heq⟩ | heq
    · exact hjoining rest (heq.symm.trans hj)
    · exact h.joining j rest (heq.symm.trans hj)
  · intro j hj
    rcases hcases j with ⟨_, heq⟩ | heq
    · exact hjoined (heq.symm.trans hj)
    · exact h.joined j (heq.symm.trans hj)

omit [DecidableEq ι] in
/-- 受け付けを終えた者が先へ進む。 -/
theorem advance (h : Shut accepting drainRequested submit worker jobs closer) {k : κ} {pc : CloserPc ω}
    (hclosed : (closer k).hasClosed = true) (hjoining : ∀ rest, pc = .join rest → ∀ w, w ∉ rest → worker w = .exited)
    (hjoined : pc = .joined → ∀ w, worker w = .exited) :
    Shut accepting drainRequested submit worker jobs (update closer k pc) :=
  have hswept (w : ω) : (closer k).swept w = true := CloserPc.swept_of_hasClosed hclosed
  h.setCloser (fun _ => h.stored k (CloserPc.stored_of_hasClosed hclosed)) (fun w _ => h.swept k w (hswept w)) hjoining
    hjoined

end Shut

theorem reachable_shut (h : (workerPool κ cfg).Reachable s) :
    Shut s.accepting s.drainRequested s.submit s.worker s.jobs s.closer := by
  refine h.invariant (I := fun s => Shut s.accepting s.drainRequested s.submit s.worker s.jobs s.closer) ?_ ?_
  · rintro _ rfl
    exact ⟨nofun, nofun, nofun, nofun, nofun, nofun⟩
  intro s a hreach hs hb _
  cases a with
  | check i | refuseClosed i | load i | refuseFull i p | reserve i p | retry i p | select i w | lock i w | rollback i w
  | unlock i w b | throwPush i w | unwind i w | release i => exact hs.setSubmit i nofun
  | recheck i w =>
      refine hs.setSubmit i fun v hv => ?_
      split at hv
      next haccepting => exact haccepting
      next => cases hv
  | push i w =>
      have hpush : s.submit i = .push w := hb
      have hdrain : s.drainRequested = true → (s.worker w).finished = false :=
        fun hdrain => absurd hpush ((hs.drained hdrain).2 i w)
      exact (hs.setJobs (s.jobs w ++ [i]) hdrain).setSubmit i nofun
  | workerLock w | workerNonEmpty w | workerSleep w => exact hs.setWorker (by rw [hb.1]; nofun) nofun
  | workerDrained w => exact hs.setWorker (by rw [hb.1]; nofun) fun _ => ⟨hb.2.2, hb.2.1⟩
  | workerPop w i =>
      obtain ⟨hworker, _⟩ := hb
      exact (hs.setJobs (s.jobs w).tail fun _ => by rw [hworker]; rfl).setWorker (by rw [hworker]; nofun) nofun
  | workerWake w | workerUnlock w i | workerRun w i | workerSubtract w i | workerRelease w i =>
      exact hs.setWorker (by rw [show s.worker w = _ from hb]; nofun) nofun
  | workerExit w =>
      have hworker : s.worker w = .exiting := hb
      exact hs.setWorker (by rw [hworker]; nofun) fun _ => hs.exited w (by rw [hworker]; rfl)
  | close k drain => exact hs.setCloser nofun nofun nofun nofun
  | store k drain =>
      have hs' : Shut false s.drainRequested s.submit s.worker s.jobs s.closer :=
        { hs with
          stored := fun _ _ => rfl
          drained := fun hdrain => ⟨rfl, (hs.drained hdrain).2⟩ }
      refine hs'.setCloser (fun _ => rfl) (fun w hw => ?_) nofun nofun
      exact absurd (cfg.mem_workers w) (by simpa [CloserPc.swept] using hw)
  | sweep k drain w rest =>
      obtain ⟨hcloser, hfree⟩ := hb
      refine hs.setCloser (fun _ => hs.stored k (by rw [hcloser]; rfl)) (fun v hv => ?_) nofun nofun
      by_cases hvw : v = w
      · -- 空いている排他を通り過ぎたので、積もうとしている者はいない
        subst hvw
        intro i hi
        exact ((reachable_locked hreach).not_held hfree).1 i (by rw [hi]; rfl)
      · refine hs.swept k v ?_
        rw [hcloser]
        simp only [CloserPc.swept, decide_eq_true_eq] at hv ⊢
        simp [hvw, hv]
  | swept k drain =>
      have hcloser : s.closer k = .sweep drain [] := hb
      refine hs.setCloser (fun _ => hs.stored k (by rw [hcloser]; rfl))
        (fun w _ => hs.swept k w (by rw [hcloser]; simp [CloserPc.swept])) ?_ ?_ <;> cases drain <;> nofun
  | exchange k =>
      have hcloser : s.closer k = .exchange := hb
      have hstored : s.accepting = false := hs.stored k (by rw [hcloser]; rfl)
      have hswept : ∀ w i, s.submit i ≠ .push w := fun w => hs.swept k w (by rw [hcloser]; rfl)
      have hs' : Shut s.accepting true s.submit s.worker s.jobs s.closer :=
        { hs with
          drained := fun _ => ⟨hstored, fun i w => hswept w i⟩
          exited := fun w hw => ⟨rfl, (hs.exited w hw).2⟩ }
      refine hs'.setCloser (fun _ => hstored) (fun w _ => hswept w) ?_ ?_ <;> split <;> nofun
  | notify k w rest =>
      obtain ⟨hcloser, _⟩ := hb
      exact hs.advance (by rw [hcloser]; rfl) nofun nofun
  | notified k =>
      have hcloser : s.closer k = .notify [] := hb
      refine hs.advance (by rw [hcloser]; rfl) ?_ nofun
      rintro rest ⟨⟩ w hw
      exact absurd (cfg.mem_workers w) hw
  | join k w rest =>
      obtain ⟨hcloser, hexited⟩ := hb
      refine hs.advance (by rw [hcloser]; rfl) ?_ nofun
      rintro rest' ⟨⟩ v hv
      by_cases hvw : v = w
      · exact hvw ▸ hexited
      · exact hs.joining k _ hcloser v (by simp [hvw, hv])
  | joined k =>
      have hcloser : s.closer k = .join [] := hb
      exact hs.advance (by rw [hcloser]; rfl) nofun fun _ w => hs.joining k [] hcloser w List.not_mem_nil

theorem hasClosed_next {k : κ} {a : Act ι ω κ} (henabled : enabled cfg s a) (h : (s.closer k).hasClosed = true) :
    ((next cfg s a).closer k).hasClosed = true := by
  have hset : ∀ {j : κ} {pc : CloserPc ω}, (j = k → pc.hasClosed = true) →
      (update s.closer j pc k).hasClosed = true := by
    intro j pc hpc
    by_cases hkj : k = j
    · subst hkj
      rw [update_self]
      exact hpc rfl
    · rw [update_of_ne hkj]
      exact h
  have hnot : ∀ {j : κ} {pc : CloserPc ω}, s.closer j = pc → pc.hasClosed = false → j ≠ k := by
    rintro j pc hj hpc rfl
    rw [hj, hpc] at h
    cases h
  cases a with
  | close j drain | store j drain | swept j drain => exact hset fun hjk => absurd hjk (hnot henabled rfl)
  | sweep j drain w rest => exact hset fun hjk => absurd hjk (hnot henabled.1 rfl)
  | exchange j =>
      refine hset fun _ => ?_
      cases s.drainRequested <;> rfl
  | notify j w rest | notified j | join j w rest | joined j => exact hset fun _ => rfl
  | _ => exact h

/-- 受け付けの終わりが返った後は、どの実行も列に積まない。 -/
theorem pushed_of_hasClosed {k : κ} {s' : State ι ω κ} (h : (workerPool κ cfg).Reachable s)
    (hk : (s.closer k).hasClosed = true) (hsteps : (workerPool κ cfg).Steps (fun _ _ => True) s s') :
    s'.pushed = s.pushed := by
  refine (hsteps.preserves (I := fun t => (t.closer k).hasClosed = true ∧ t.pushed = s.pushed) h ?_ ⟨hk, rfl⟩).2
  intro t a hreach ht henabled _
  refine ⟨hasClosed_next henabled ht.1, ?_⟩
  cases a with
  | push i w => exact absurd henabled ((reachable_shut hreach).swept k w (CloserPc.swept_of_hasClosed ht.1) i)
  | _ => exact ht.2

/-- `DrainAndJoin` が糸を待ち終えると、積んだ仕事はすべて走り終えている。 -/
theorem ran_of_joined {k : κ} (h : (workerPool κ cfg).Reachable s) (hk : s.closer k = .joined) (w : ω) :
    s.ran w = s.pushed w ∧ s.jobs w = [] := by
  have hshut := reachable_shut h
  have hexited := hshut.joined k hk w
  have hjobs := (hshut.exited w (by rw [hexited]; rfl)).2
  have horder := (reachable_recorded h).order w
  rw [hexited, hjobs] at horder
  exact ⟨by simpa [WorkerPc.taken] using horder, hjobs⟩

end Xrpc.Server.WorkerPool
