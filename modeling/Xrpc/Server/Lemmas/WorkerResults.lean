import Xrpc.Common.Lemmas.MpscQueue
import Xrpc.Server.WorkerResults

/-!
# 処理結果の受け渡しの不変条件
-/

namespace Xrpc.Server.WorkerResults
open Xrpc.Lib Xrpc.Common Function

variable {ι : Type} [DecidableEq ι] {capacity : Nat} {s : State ι}

/-- 待ち行列の側から見た、受け渡しの動作。 -/
def queueSimulation (ι : Type) [DecidableEq ι] (capacity : Nat) :
    Machine.Simulation (workerResults ι capacity) (fun _ _ => True) (MpscQueue.mpscQueue ι capacity) (fun _ _ => True) where
  view s := s.queue
  act _ a :=
    match a with
    | .queue a => some a
    | _ => none
  init s hs := congrArg State.queue hs
  silent s a _ _ _ hact := by
    cases a with
    | queue a => cases hact
    | _ => rfl
  step s a b _ hb _ hact := by
    cases a with
    | queue a =>
        obtain rfl := Option.some.inj hact
        exact ⟨hb.1, trivial, rfl⟩
    | _ => cases hact

theorem reachable_queue (h : (workerResults ι capacity).Reachable s) : MpscQueue.Wf capacity s.queue :=
  MpscQueue.reachable_wf ((queueSimulation ι capacity).reach h)

/-! ## `PostWorkerResult` の位置 -/

/-- `PostWorkerResult` の位置と `TryPush` の位置の関係。 -/
structure Paired (producer : ι → ProducerPc) (push : ι → MpscQueue.PushPc) (begun : List ι) : Prop where
  idle : ∀ i, producer i = .idle → push i = .loadDequeue
  posting : ∀ i, producer i = .posting → push i = .returned true
  done : ∀ i, producer i = .done → ∃ b, push i = .returned b
  begun : ∀ i, begun.count i = if producer i = .idle then 0 else 1

namespace Paired

variable {producer : ι → ProducerPc} {push : ι → MpscQueue.PushPc} {begun : List ι}

/-- 始まった `PostWorkerResult` が、`TryPush` の返った後に進む。 -/
theorem advance (h : Paired producer push begun) {i : ι} {pc : ProducerPc} (hold : producer i ≠ .idle) (hpc : pc ≠ .idle)
    {b : Bool} (hpush : push i = .returned b) (hposting : pc = .posting → b = true) :
    Paired (update producer i pc) push begun := by
  constructor
  · intro j hj
    by_cases hji : j = i
    · subst hji
      exact absurd ((update_self _ _ _).symm.trans hj) hpc
    · exact h.idle j ((update_of_ne hji _ _).symm.trans hj)
  · intro j hj
    by_cases hji : j = i
    · subst hji
      rw [hpush, hposting ((update_self _ _ _).symm.trans hj)]
    · exact h.posting j ((update_of_ne hji _ _).symm.trans hj)
  · intro j hj
    by_cases hji : j = i
    · exact ⟨b, hji ▸ hpush⟩
    · exact h.done j ((update_of_ne hji _ _).symm.trans hj)
  · intro j
    by_cases hji : j = i
    · subst hji
      rw [h.begun, update_self, if_neg hold, if_neg hpc]
    · rw [h.begun, update_of_ne hji]

theorem begin (h : Paired producer push begun) {i : ι} (hold : producer i = .idle) :
    Paired (update producer i .pushing) push (i :: begun) := by
  constructor
  · intro j hj
    by_cases hji : j = i
    · subst hji; cases (update_self _ _ _).symm.trans hj
    · exact h.idle j ((update_of_ne hji _ _).symm.trans hj)
  · intro j hj
    by_cases hji : j = i
    · subst hji; cases (update_self _ _ _).symm.trans hj
    · exact h.posting j ((update_of_ne hji _ _).symm.trans hj)
  · intro j hj
    by_cases hji : j = i
    · subst hji; cases (update_self _ _ _).symm.trans hj
    · exact h.done j ((update_of_ne hji _ _).symm.trans hj)
  · intro j
    by_cases hji : j = i
    · subst hji
      rw [List.count_cons_self, h.begun, if_pos hold, update_self, if_neg nofun]
    · rw [List.count_cons_of_ne (Ne.symm hji), h.begun, update_of_ne hji]

/-- `TryPush` の中の動き。 -/
theorem movePush (h : Paired producer push begun) {push' : ι → MpscQueue.PushPc}
    (hpush : ∀ i, producer i ≠ .pushing → push' i = push i) : Paired producer push' begun := by
  constructor
  · intro i hi
    rw [hpush i (by rw [hi]; nofun), h.idle i hi]
  · intro i hi
    rw [hpush i (by rw [hi]; nofun), h.posting i hi]
  · intro i hi
    rw [hpush i (by rw [hi]; nofun)]
    exact h.done i hi
  · exact h.begun

end Paired

/-- 動いている呼び出しの外の `TryPush` は、待ち行列の動作で動かない。 -/
theorem push_of_runs {a : MpscQueue.Act ι} (hruns : s.runs a = true) {i : ι} (hi : s.producer i ≠ .pushing) :
    (MpscQueue.next capacity s.queue a).push i = s.queue.push i := by
  refine MpscQueue.push_of_ne fun hpusher => hi ?_
  rw [State.runs, hpusher] at hruns
  exact of_decide_eq_true hruns

theorem reachable_paired (h : (workerResults ι capacity).Reachable s) :
    Paired s.producer s.queue.push s.begun := by
  refine h.invariant (I := fun s => Paired s.producer s.queue.push s.begun) ?_ ?_
  · rintro _ rfl
    constructor <;> simp [State.initial, MpscQueue.State.initial]
  intro s a _ hs hb _
  cases a with
  | begin i => exact hs.begin hb
  | queue a => exact hs.movePush fun i hi => push_of_runs hb.2 hi
  | exchange i =>
      obtain ⟨hproducer, hpush⟩ := hb
      refine hs.advance (by rw [hproducer]; rintro ⟨⟩) ?_ hpush fun _ => rfl
      split <;> rintro ⟨⟩
  | postDrain i =>
      have hproducer : s.producer i = .posting := hb
      exact hs.advance (by rw [hproducer]; rintro ⟨⟩) (by rintro ⟨⟩) (hs.posting i hproducer) (by rintro ⟨⟩)
  | postOverflow i =>
      obtain ⟨hproducer, hpush⟩ := hb
      exact hs.advance (by rw [hproducer]; rintro ⟨⟩) (by rintro ⟨⟩) hpush (by rintro ⟨⟩)
  | _ => exact hs

/-! ## 結果の数 -/

/-- 結果 `j` の置かれている所の数。 -/
def State.places (capacity : Nat) (s : State ι) (j : ι) : Nat :=
  s.handled.count j + s.drain.hand.count j + (s.queued capacity).count j + s.overflow.count j + (s.holds j).toNat

theorem places_congr {s' : State ι} {j : ι} (hhandled : s'.handled = s.handled) (hhand : s'.drain.hand = s.drain.hand)
    (hqueued : (s'.queued capacity).count j = (s.queued capacity).count j) (hoverflow : s'.overflow = s.overflow)
    (hholds : s'.holds j = s.holds j) : s'.places capacity j = s.places capacity j := by
  simp only [State.places, hhandled, hhand, hqueued, hoverflow, hholds]

/-- 枠へ置く前の `TryPush` の移動は、結果を手放さない。 -/
theorem holding_update (producer : ι → ProducerPc) (push : ι → MpscQueue.PushPc) {i : ι} {pc : MpscQueue.PushPc}
    (h : holding (producer i) (push i) = holding (producer i) pc) (j : ι) :
    holding (producer j) (update push i pc j) = holding (producer j) (push j) := by
  by_cases hji : j = i
  · subst hji
    rw [update_self, h]
  · rw [update_of_ne hji]

theorem holding_producer (producer : ι → ProducerPc) (push : ι → MpscQueue.PushPc) {i : ι} {pc : ProducerPc}
    (h : holding pc (push i) = holding (producer i) (push i)) (j : ι) :
    holding (update producer i pc j) (push j) = holding (producer j) (push j) := by
  by_cases hji : j = i
  · subst hji
    rw [update_self, h]
  · rw [update_of_ne hji]

omit [DecidableEq ι] in
theorem hand_popFail (pc : DrainPc ι) :
    (pc.afterPop .popEmpty).hand = pc.hand ∧ (pc.afterPop .popUnready).hand = pc.hand := by
  cases pc <;> exact ⟨rfl, rfl⟩

omit [DecidableEq ι] in
theorem hand_popStore {pc : DrainPc ι} (h : pc.pops = true) (v : ι) : pc.hand = [] ∧ (pc.afterPop (.popStore v)).hand = [v] := by
  cases pc with
  | loop d => exact ⟨rfl, rfl⟩
  | recheck => exact ⟨rfl, rfl⟩
  | _ => cases h

theorem places_queue (hwf : MpscQueue.Wf capacity s.queue) {a : MpscQueue.Act ι}
    (hb : (workerResults ι capacity).enabled s (.queue a)) (j : ι) :
    ((workerResults ι capacity).next s (.queue a)).places capacity j = s.places capacity j := by
  obtain ⟨hb, hruns⟩ := hb
  have hproducer : ∀ {i}, a.pusher = some i → s.producer i = .pushing := by
    intro i hi
    rw [State.runs, hi] at hruns
    exact of_decide_eq_true hruns
  have hmove : ∀ {i pc}, a.pusher = some i → holding .pushing (s.queue.push i) = holding .pushing pc →
      holding (s.producer j) (update s.queue.push i pc j) = holding (s.producer j) (s.queue.push j) :=
    fun hi heq => holding_update s.producer s.queue.push (by rw [hproducer hi, heq]) j
  have htaken : s.queue.pop = .loadReady ∨ s.queue.pop = .loadEnqueue ∨ s.queue.pop = .take → s.queue.taken = [] := by
    rintro (hpop | hpop | hpop) <;> simp [MpscQueue.State.taken, hpop]
  cases a with
  | loadDequeue i =>
      have hpush : s.queue.push i = .loadDequeue := hb
      exact places_congr rfl rfl rfl rfl (hmove rfl (by rw [hpush]; rfl))
  | loadEnqueue i d | refuse i d | reserve i d p =>
      have hpush := hb.1
      exact places_congr rfl rfl rfl rfl (hmove rfl (by rw [hpush]; rfl))
  | retry i d p | publish i p =>
      have hpush : s.queue.push i = _ := hb
      exact places_congr rfl rfl rfl rfl (hmove rfl (by rw [hpush]; rfl))
  | construct i p =>
      have hpush : s.queue.push i = .construct p := hb
      have hcontents := (MpscQueue.contents_construct hwf hb).count_eq j
      rw [← List.singleton_append, List.count_append] at hcontents
      have hholds : (holding (s.producer j) (update s.queue.push i (.publish p) j)).toNat + [i].count j =
          (s.holds j).toNat := by
        by_cases hji : j = i
        · subst hji
          rw [update_self, State.holds, hproducer rfl, hpush, List.count_singleton_self]
          rfl
        · rw [update_of_ne hji, List.count_eq_zero_of_not_mem (mt List.mem_singleton.mp hji)]
          rfl
      show s.handled.count j + s.drain.hand.count j +
        (s.queue.taken ++ (MpscQueue.next capacity s.queue (.construct i p)).contents capacity).count j +
        s.overflow.count j + (holding (s.producer j) (update s.queue.push i (.publish p) j)).toNat = _
      rw [List.count_append, hcontents, State.places, State.queued, List.count_append]
      omega
  | popTake v =>
      have hcontents := (MpscQueue.contents_popTake hwf hb).count_eq j
      have hpop : s.queue.pop = .take := hb.1
      refine places_congr rfl rfl ?_ rfl rfl
      rw [State.queued, State.queued, htaken (by simp [hpop]), List.nil_append, hcontents]
      rfl
  | popStore v =>
      obtain ⟨hold, hnew⟩ := hand_popStore hruns v
      have hpop : s.queue.pop = .storeDequeue v := hb
      show s.handled.count j + (s.drain.afterPop (.popStore v)).hand.count j + (s.queue.contents capacity).count j +
        s.overflow.count j + (s.holds j).toNat = _
      rw [State.places, State.queued, hold, hnew, show s.queue.taken = [v] by simp [MpscQueue.State.taken, hpop],
        List.count_append, List.count_nil]
      omega
  | popEmpty => exact places_congr rfl (hand_popFail s.drain).1 rfl rfl rfl
  | popUnready =>
      refine places_congr rfl (hand_popFail s.drain).2 ?_ rfl rfl
      rw [State.queued, State.queued, htaken (Or.inl hb.1)]
      rfl
  | popLoad =>
      refine places_congr rfl rfl ?_ rfl rfl
      rw [State.queued, State.queued, htaken (Or.inr (Or.inl hb.1))]
      rfl
  | popReady =>
      refine places_congr rfl rfl ?_ rfl rfl
      rw [State.queued, State.queued, htaken (Or.inl hb.1)]
      rfl

theorem count_overflow_post (posted callbacks : List (Callback ι)) (cb : Callback ι) (j : ι) :
    ((posted ++ [cb] ++ callbacks).flatMap Callback.results).count j =
      ((posted ++ callbacks).flatMap Callback.results).count j + cb.results.count j := by
  simp only [List.flatMap_append, List.count_append, List.flatMap_cons, List.flatMap_nil, List.append_nil]
  omega

theorem count_overflow_run {callbacks : List (Callback ι)} {cb : Callback ι} (h : callbacks.head? = some cb)
    (posted : List (Callback ι)) (j : ι) :
    ((posted ++ callbacks).flatMap Callback.results).count j =
      ((posted ++ callbacks.tail).flatMap Callback.results).count j + cb.results.count j := by
  obtain ⟨rest, rfl⟩ := List.head?_eq_some_iff.mp h
  simp only [List.flatMap_append, List.count_append, List.flatMap_cons, List.tail_cons]
  omega

/-- 始まった `PostWorkerResult` の結果は、ちょうど一つの所にある。 -/
theorem reachable_places (h : (workerResults ι capacity).Reachable s) (j : ι) :
    s.places capacity j = s.begun.count j := by
  refine h.invariant (I := fun s => ∀ j, s.places capacity j = s.begun.count j) ?_ ?_ j
  · rintro _ rfl j
    simp [State.initial, State.places, State.queued, State.overflow, State.holds, holding, DrainPc.hand,
      MpscQueue.State.initial, MpscQueue.State.taken, MpscQueue.State.contents]
  intro s a hreach hs hb _ j
  have hs := hs j
  have hpost := fun cb => count_overflow_post s.postedCallbacks s.callbacks cb j
  have hrun := fun {cb} (hcb : s.callbacks.head? = some cb) => count_overflow_run hcb s.postedCallbacks j
  have hqueue := fun {a} ha => (places_queue (reachable_queue hreach) (a := a) ha j).trans hs
  simp only [State.places, State.queued, State.overflow, State.holds] at hs ⊢
  cases a with
  | begin i =>
      have hproducer : s.producer i = .idle := hb
      have hpush := (reachable_paired hreach).idle i hproducer
      simp only [workerResults, next]
      by_cases hji : j = i
      · subst hji
        rw [hproducer] at hs
        rw [update_self, hpush, List.count_cons_self, ← hs]
        rfl
      · rw [update_of_ne hji, List.count_cons_of_ne (Ne.symm hji), ← hs]
  | queue a => exact hqueue hb
  | exchange i =>
      obtain ⟨hproducer, hpush⟩ := hb
      simp only [workerResults, next]
      rw [holding_producer, ← hs]
      rw [hproducer, hpush]
      split <;> rfl
  | postDrain i =>
      have hproducer : s.producer i = .posting := hb
      have hover := hpost .drain
      simp only [workerResults, next, Callback.results, List.count_nil] at hover ⊢
      rw [holding_producer _ _ (by rw [hproducer]; rfl)]
      omega
  | postOverflow i =>
      obtain ⟨hproducer, hpush⟩ := hb
      have hover := hpost (.overflow i)
      simp only [workerResults, next, Callback.results] at hover ⊢
      by_cases hji : j = i
      · subst hji
        rw [hproducer, hpush] at hs
        rw [update_self, hover, List.count_singleton_self, ← hs]
        rfl
      · rw [update_of_ne hji, hover, List.count_eq_zero_of_not_mem (mt List.mem_singleton.mp hji)]
        exact hs
  | postControl =>
      have hover := hpost .control
      simp only [workerResults, next, Callback.results, List.count_nil] at hover ⊢
      omega
  | swapCallbacks =>
      obtain ⟨hcallbacks, _⟩ := hb
      simp only [workerResults, next, hcallbacks, List.append_nil, List.nil_append] at hs ⊢
      exact hs
  | runControl =>
      have hover := hrun hb.1
      simp only [workerResults, next, Callback.results, List.count_nil] at hover ⊢
      omega
  | runOverflow i =>
      have hover := hrun hb.1
      simp only [workerResults, next, Callback.results, List.count_cons, List.count_nil] at hover ⊢
      omega
  | runDrain =>
      have hover := hrun hb.1
      simp only [workerResults, next, Callback.results, List.count_nil, hb.2, DrainPc.hand] at hover hs ⊢
      omega
  | handle d i =>
      have hdrain : s.drain = .handling d i := hb
      simp only [workerResults, next, hdrain, DrainPc.hand, List.count_cons, List.count_nil] at hs ⊢
      omega
  | yield =>
      have hdrain : s.drain = .loop maxWorkerResultsPerDrain := hb
      have hover := hpost .drain
      simp only [workerResults, next, hdrain, DrainPc.hand, Callback.results, List.count_nil] at hover hs ⊢
      omega
  | clear =>
      have hdrain : s.drain = .clear := hb
      simp only [hdrain] at hs
      exact hs
  | rearm i =>
      have hdrain : s.drain = .rearm i := hb
      simp only [hdrain] at hs
      exact hs
  | handleLast i =>
      have hdrain : s.drain = .handleLast i := hb
      simp only [workerResults, next, hdrain, DrainPc.hand, List.count_cons, List.count_nil] at hs ⊢
      omega

/-- 手元の結果は、始まった `PostWorkerResult` のものである。 -/
theorem count_filter_holds (h : Paired s.producer s.queue.push s.begun) (j : ι) :
    (s.begun.filter s.holds).count j = (s.holds j).toNat := by
  cases hj : s.holds j with
  | true =>
      have hne : s.producer j ≠ .idle := by
        intro hidle
        rw [State.holds, hidle] at hj
        cases hj
      rw [List.count_filter hj, h.begun, if_neg hne]
      rfl
  | false =>
      refine List.count_eq_zero_of_not_mem fun hmem => ?_
      rw [(List.mem_filter.mp hmem).2] at hj
      cases hj

/-! ## 取り出しの約束 -/

/-- 旗が立っている間に、`DrainWorkerResults` を引き受けている位置。 -/
def DrainPc.owns : DrainPc ι → Bool
  | .loop _ | .handling _ _ | .clear | .handleLast _ => true
  | _ => false

omit [DecidableEq ι] in
theorem owns_afterPop {pc : DrainPc ι} (h : pc.owns = true) (a : MpscQueue.Act ι) : (pc.afterPop a).owns = true := by
  cases pc with
  | loop d => cases a <;> rfl
  | handling d v => cases a <;> rfl
  | clear => cases a <;> rfl
  | handleLast v => cases a <;> rfl
  | _ => cases h

omit [DecidableEq ι] in
theorem drain_mem_post {posted callbacks : List (Callback ι)} (h : Callback.drain ∈ posted ++ callbacks) (cb : Callback ι) :
    Callback.drain ∈ posted ++ [cb] ++ callbacks := by
  rcases List.mem_append.mp h with h | h <;> simp [h]

omit [DecidableEq ι] in
theorem drain_mem_tail {posted callbacks : List (Callback ι)} {cb : Callback ι} (h : Callback.drain ∈ posted ++ callbacks)
    (hcb : callbacks.head? = some cb) (hne : cb ≠ .drain) : Callback.drain ∈ posted ++ callbacks.tail := by
  obtain ⟨rest, rfl⟩ := List.head?_eq_some_iff.mp hcb
  rcases List.mem_append.mp h with h | h
  · exact List.mem_append_left _ h
  · rcases List.mem_cons.mp h with rfl | h
    · exact absurd rfl hne
    · exact List.mem_append_right _ h

theorem exists_posting_update {producer : ι → ProducerPc} (h : ∃ j, producer j = .posting) {i : ι}
    (hi : producer i ≠ .posting) (pc : ProducerPc) : ∃ j, update producer i pc j = .posting := by
  obtain ⟨j, hj⟩ := h
  exact ⟨j, (update_of_ne (by rintro rfl; exact hi hj) _ _).trans hj⟩

/-- 立っている旗には、取り出しを行う者か、`Post` を呼ぶ者がいる。 -/
theorem reachable_scheduled (h : (workerResults ι capacity).Reachable s) (hscheduled : s.drainScheduled = true) :
    s.drainPosted ∨ s.drain.owns = true ∨ ∃ i, s.producer i = .posting := by
  refine h.invariant (I := fun s => s.drainScheduled = true →
    s.drainPosted ∨ s.drain.owns = true ∨ ∃ i, s.producer i = .posting) ?_ ?_ hscheduled
  · rintro _ rfl
    nofun
  intro s a _ hs hb _ hscheduled
  cases a with
  | begin i =>
      have hproducer : s.producer i = .idle := hb
      exact (hs hscheduled).imp_right (.imp_right (exists_posting_update · (by rw [hproducer]; nofun) _))
  | queue a => exact (hs hscheduled).imp_right (.imp_left (owns_afterPop · a))
  | exchange i =>
      have hproducer : s.producer i = .pushing := hb.1
      cases hold : s.drainScheduled with
      | true => exact (hs hold).imp_right (.imp_right (exists_posting_update · (by rw [hproducer]; nofun) _))
      | false =>
          refine .inr (.inr ⟨i, ?_⟩)
          simp [workerResults, next, hold]
  | postDrain i => exact .inl (by simp [State.drainPosted, workerResults, next])
  | postOverflow i =>
      have hproducer : s.producer i = .pushing := hb.1
      exact (hs hscheduled).imp (drain_mem_post · _) (.imp_right (exists_posting_update · (by rw [hproducer]; nofun) _))
  | postControl => exact (hs hscheduled).imp_left (drain_mem_post · _)
  | swapCallbacks =>
      refine (hs hscheduled).imp_left fun hposted => ?_
      rwa [State.drainPosted, hb.1, List.append_nil] at hposted
  | runControl => exact (hs hscheduled).imp_left (drain_mem_tail · hb.1 nofun)
  | runOverflow i => exact (hs hscheduled).imp_left (drain_mem_tail · hb.1 nofun)
  | yield => exact .inl (by simp [State.drainPosted, workerResults, next])
  | clear => cases hscheduled
  | runDrain | handle d i | rearm i | handleLast i => exact .inr (.inl rfl)

/-- 待ち行列の動作の後も、取り出しが続くか、始める者が残る。 -/
theorem afterPop_idle (hwf : MpscQueue.Wf capacity s.queue) (hpaired : Paired s.producer s.queue.push s.begun)
    {a : MpscQueue.Act ι} (hb : MpscQueue.enabled capacity s.queue a) (hdrain : s.drain ≠ .idle)
    (hidle : s.drain.afterPop a = .idle) :
    s.queue.enqueuePosition = s.queue.dequeuePosition ∨ ∃ i, s.unfinished i := by
  cases a with
  | popEmpty => exact .inl hb.2
  | popUnready =>
      obtain ⟨i, hreserved, hpush⟩ := MpscQueue.exists_unpublished hwf hb.1 hb.2
      refine .inr ⟨i, hreserved, fun hdone => ?_⟩
      obtain ⟨b, hreturned⟩ := hpaired.done i hdone
      exact hpush b hreturned
  | popStore v => cases hpc : s.drain <;> simp [DrainPc.afterPop, hpc] at hidle hdrain
  | _ => exact absurd hidle hdrain

theorem unfinished_update {i j : ι} {pc : ProducerPc} (hj : s.unfinished j) (hne : j ≠ i ∨ pc ≠ .done) :
    j ∈ s.queue.reserved ∧ update s.producer i pc j ≠ .done := by
  refine ⟨hj.1, ?_⟩
  by_cases hji : j = i
  · subst hji
    rw [update_self]
    exact hne.resolve_left (absurd rfl)
  · rw [update_of_ne hji]
    exact hj.2

theorem awake_queue (hwf : MpscQueue.Wf capacity s.queue) (hpaired : Paired s.producer s.queue.push s.begun)
    {a : MpscQueue.Act ι} (hb : (workerResults ι capacity).enabled s (.queue a))
    (hs : s.queue.enqueuePosition ≠ s.queue.dequeuePosition →
      s.drainScheduled = true ∨ s.drainPosted ∨ s.drain ≠ .idle ∨ ∃ i, s.unfinished i)
    (hne : (MpscQueue.next capacity s.queue a).enqueuePosition ≠ (MpscQueue.next capacity s.queue a).dequeuePosition) :
    s.drainScheduled = true ∨ s.drainPosted ∨ s.drain.afterPop a ≠ .idle ∨
      ∃ i, i ∈ (MpscQueue.next capacity s.queue a).reserved ∧ s.producer i ≠ .done := by
  obtain ⟨hb, hruns⟩ := hb
  rcases MpscQueue.positions_next capacity s.queue a with ⟨henq, hdeq⟩ | ⟨i, d, p, rfl⟩ | ⟨v, rfl⟩
  · rw [henq, hdeq] at hne
    have hkeep : (∃ i, s.unfinished i) →
        ∃ i, i ∈ (MpscQueue.next capacity s.queue a).reserved ∧ s.producer i ≠ .done :=
      fun ⟨i, hi⟩ => ⟨i, MpscQueue.mem_reserved_next hi.1 a, hi.2⟩
    rcases hs hne with hscheduled | hposted | hdrain | hunfinished
    · exact .inl hscheduled
    · exact .inr (.inl hposted)
    · by_cases hidle : s.drain.afterPop a = .idle
      · exact .inr (.inr (.inr (hkeep ((afterPop_idle hwf hpaired hb hdrain hidle).resolve_left hne))))
      · exact .inr (.inr (.inl hidle))
    · exact .inr (.inr (.inr (hkeep hunfinished)))
  · -- 予約した者は、まだ `ScheduleWorkerResultDrain` に達していない
    have hproducer : s.producer i = .pushing := of_decide_eq_true hruns
    exact .inr (.inr (.inr ⟨i, List.mem_append_right _ (List.mem_singleton_self i), by rw [hproducer]; nofun⟩))
  · refine .inr (.inr (.inl fun hidle => ?_))
    have hand := (hand_popStore hruns v).2
    rw [hidle] at hand
    cases hand

/-- 空でない待ち行列には、旗、走っていない取り出し、走っている取り出し、終わっていない `PostWorkerResult` のどれかがある。 -/
theorem reachable_awake (h : (workerResults ι capacity).Reachable s)
    (hne : s.queue.enqueuePosition ≠ s.queue.dequeuePosition) :
    s.drainScheduled = true ∨ s.drainPosted ∨ s.drain ≠ .idle ∨ ∃ i, s.unfinished i := by
  refine h.invariant (I := fun s => s.queue.enqueuePosition ≠ s.queue.dequeuePosition →
    s.drainScheduled = true ∨ s.drainPosted ∨ s.drain ≠ .idle ∨ ∃ i, s.unfinished i) ?_ ?_ hne
  · rintro _ rfl hne
    exact absurd rfl hne
  intro s a hreach hs hb _ hne
  have hwf := reachable_queue hreach
  have hpaired := reachable_paired hreach
  cases a with
  | begin i =>
      exact (hs hne).imp_right (.imp_right (.imp_right fun ⟨j, hj⟩ => ⟨j, unfinished_update hj (.inr nofun)⟩))
  | queue a => exact awake_queue hwf hpaired hb hs hne
  | exchange i => exact .inl rfl
  | postDrain i => exact .inr (.inl (by simp [State.drainPosted, workerResults, next]))
  | postOverflow i =>
      obtain ⟨_, hpush⟩ := hb
      refine (hs hne).imp_right (.imp (drain_mem_post · _) (.imp_right fun ⟨j, hj⟩ => ⟨j, unfinished_update hj (.inl ?_)⟩))
      rintro rfl
      have hreserved := (hwf.reserved_iff j).mp hj.1
      rw [hpush] at hreserved
      cases hreserved
  | postControl => exact (hs hne).imp_right (.imp_left (drain_mem_post · _))
  | swapCallbacks =>
      refine (hs hne).imp_right (.imp_left fun hposted => ?_)
      rwa [State.drainPosted, hb.1, List.append_nil] at hposted
  | runControl => exact (hs hne).imp_right (.imp_left (drain_mem_tail · hb.1 nofun))
  | runOverflow i => exact (hs hne).imp_right (.imp_left (drain_mem_tail · hb.1 nofun))
  | yield => exact .inr (.inl (by simp [State.drainPosted, workerResults, next]))
  | runDrain | handle d i | clear | rearm i | handleLast i => exact .inr (.inr (.inl nofun))

theorem unfinished_of_posting (h : (workerResults ι capacity).Reachable s) {i : ι} (hi : s.producer i = .posting) :
    s.unfinished i := by
  refine ⟨((reachable_queue h).reserved_iff i).mpr ?_, by rw [hi]; nofun⟩
  rw [(reachable_paired h).posting i hi]
  rfl

/-- 空でない待ち行列には、取り出す者か、取り出しを始める者がいる。 -/
theorem reachable_served (h : (workerResults ι capacity).Reachable s)
    (hne : s.queue.enqueuePosition ≠ s.queue.dequeuePosition) :
    s.drainPosted ∨ s.drain ≠ .idle ∨ ∃ i, s.unfinished i := by
  rcases reachable_awake h hne with hscheduled | hrest
  · rcases reachable_scheduled h hscheduled with hposted | howns | ⟨i, hi⟩
    · exact .inl hposted
    · exact .inr (.inl (by rintro hidle; rw [hidle] at howns; cases howns))
    · exact .inr (.inr ⟨i, unfinished_of_posting h hi⟩)
  · exact hrest

end Xrpc.Server.WorkerResults
