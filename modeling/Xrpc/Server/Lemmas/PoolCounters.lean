import Xrpc.Lib.Sums
import Xrpc.Server.Lemmas.WorkerPool

/-!
# 作業の糸の集まりの数え
-/

namespace Xrpc.Server

theorem addSize_of_lt {a b : Nat} (h : a + b < 2 ^ 64) : addSize a b = a + b := Nat.mod_eq_of_lt h

theorem subSize_of_le {a b : Nat} (hab : b ≤ a) (ha : a < 2 ^ 64) : subSize a b = a - b := by
  rw [subSize, show a + (2 ^ 64 - b) = a - b + 2 ^ 64 by omega, Nat.add_mod_right]
  exact Nat.mod_eq_of_lt (by omega)

namespace WorkerPool
open Xrpc.Lib Function

variable {ι ω κ : Type} {cfg : Config ι ω} {s : State ι ω κ}

/-! ## 要求の数 -/

@[simp]
theorem Config.logical_nil : cfg.logical [] = 0 := rfl

@[simp]
theorem Config.logical_cons (i : ι) (jobs : List ι) : cfg.logical (i :: jobs) = cfg.logicalJobs i + cfg.logical jobs :=
  List.sum_cons

@[simp]
theorem Config.logical_append (xs ys : List ι) : cfg.logical (xs ++ ys) = cfg.logical xs + cfg.logical ys := by
  simp [Config.logical]

theorem Config.logical_erase [DecidableEq ι] {i : ι} {jobs : List ι} (h : i ∈ jobs) :
    cfg.logicalJobs i + cfg.logical (jobs.erase i) = cfg.logical jobs :=
  List.sum_map_erase cfg.logicalJobs h

theorem Config.fits_iff {i : ι} {pending : Nat} : cfg.fits i pending = true ↔ pending + cfg.logicalJobs i ≤ cfg.maxPendingJobs := by
  have := cfg.logicalJobs_pos i
  simp only [Config.fits, Bool.not_eq_true', Bool.or_eq_false_iff, decide_eq_false_iff_not]
  omega

theorem Config.total_change [DecidableEq ω] {f g : ω → Nat} (w : ω) (h : ∀ v, v ≠ w → g v = f v) :
    cfg.total g + f w = cfg.total f + g w :=
  sum_map_change cfg.workers_nodup (cfg.mem_workers w) h

theorem Config.total_zero : cfg.total (fun _ => 0) = 0 := by simp [Config.total]

theorem Config.le_total (f : ω → Nat) (w : ω) : f w ≤ cfg.total f := le_sum_map (cfg.mem_workers w)

theorem WorkerPc.logical_unsubtracted_le {pc : WorkerPc ι} :
    cfg.logical pc.unsubtracted ≤ cfg.logical pc.executing := by
  cases pc with
  | release i => exact Nat.zero_le _
  | _ => exact Nat.le_refl _

/-! ## 不変条件 -/

variable [DecidableEq ι] [DecidableEq ω] [DecidableEq κ]

/-- 列 `w` とその糸が抱える要求の数。 -/
def load (cfg : Config ι ω) (worker : ω → WorkerPc ι) (jobs : ω → List ι) (w : ω) : Nat :=
  cfg.logical (jobs w) + cfg.logical (worker w).executing

/-- 全体の数と列ごとの数は、抱えている仕事の要求の数である。 -/
structure Counted (cfg : Config ι ω) (pendingJobs : Nat) (submit : ι → SubmitPc ω) (worker : ω → WorkerPc ι)
    (jobs : ω → List ι) (queuedLogicalJobs pendingLogicalJobs : ω → Nat) (reserving : List ι) : Prop where
  mem : ∀ i, i ∈ reserving ↔ (submit i).reserved = true
  nodup : reserving.Nodup
  pending : pendingJobs = cfg.logical reserving + cfg.total (load cfg worker jobs)
  le_max : pendingJobs ≤ cfg.maxPendingJobs
  queued : ∀ w, queuedLogicalJobs w = cfg.logical (jobs w)
  perQueue : ∀ w, pendingLogicalJobs w = cfg.logical (jobs w) + cfg.logical (worker w).unsubtracted

namespace Counted

variable {pendingJobs : Nat} {submit : ι → SubmitPc ω} {worker : ω → WorkerPc ι} {jobs : ω → List ι}
  {queuedLogicalJobs pendingLogicalJobs : ω → Nat} {reserving : List ι}

/-! ### 数の上限 -/

omit [DecidableEq ω] in
theorem reserved_le (h : Counted cfg pendingJobs submit worker jobs queuedLogicalJobs pendingLogicalJobs reserving)
    {i : ι} (hi : (submit i).reserved = true) :
    cfg.logicalJobs i + cfg.logical (reserving.erase i) + cfg.total (load cfg worker jobs) = pendingJobs := by
  rw [h.pending, Config.logical_erase ((h.mem i).mpr hi)]

omit [DecidableEq ι] [DecidableEq ω] in
theorem load_le (h : Counted cfg pendingJobs submit worker jobs queuedLogicalJobs pendingLogicalJobs reserving) (w : ω) :
    load cfg worker jobs w ≤ pendingJobs := by
  rw [h.pending]
  exact (cfg.le_total _ w).trans (Nat.le_add_left _ _)

omit [DecidableEq ω] in
/-- 予約した仕事は、列の数に足しても溢れない。 -/
theorem push_fits (h : Counted cfg pendingJobs submit worker jobs queuedLogicalJobs pendingLogicalJobs reserving)
    {i : ι} (hi : (submit i).reserved = true) (w : ω) :
    queuedLogicalJobs w + cfg.logicalJobs i < 2 ^ 64 ∧ pendingLogicalJobs w + cfg.logicalJobs i < 2 ^ 64 := by
  have hmax := cfg.max_lt
  have hle := h.le_max
  have hsum := h.reserved_le hi
  have hload := cfg.le_total (load cfg worker jobs) w
  have hunsub : cfg.logical (worker w).unsubtracted ≤ cfg.logical (worker w).executing :=
    WorkerPc.logical_unsubtracted_le
  rw [h.queued, h.perQueue]
  simp only [load] at hload
  omega

/-! ### 一つの場所の変化 -/

omit [DecidableEq ω] in
theorem keepSubmit (h : Counted cfg pendingJobs submit worker jobs queuedLogicalJobs pendingLogicalJobs reserving)
    {i : ι} {pc : SubmitPc ω} (hpc : pc.reserved = (submit i).reserved) :
    Counted cfg pendingJobs (update submit i pc) worker jobs queuedLogicalJobs pendingLogicalJobs reserving := by
  refine { h with mem := fun j => ?_ }
  by_cases hji : j = i
  · subst hji
    rw [update_self, hpc, h.mem]
  · rw [update_of_ne hji, h.mem]

omit [DecidableEq ι] in
theorem keepWorker (h : Counted cfg pendingJobs submit worker jobs queuedLogicalJobs pendingLogicalJobs reserving)
    {w : ω} {pc : WorkerPc ι} (hexec : pc.executing = (worker w).executing)
    (hunsub : pc.unsubtracted = (worker w).unsubtracted) :
    Counted cfg pendingJobs submit (update worker w pc) jobs queuedLogicalJobs pendingLogicalJobs reserving := by
  have hload : load cfg (update worker w pc) jobs = load cfg worker jobs := by
    funext v
    by_cases hvw : v = w
    · subst hvw
      simp only [load, update_self, hexec]
    · simp only [load, update_of_ne hvw]
  refine { h with pending := hload ▸ h.pending, perQueue := fun v => ?_ }
  by_cases hvw : v = w
  · subst hvw
    rw [update_self, hunsub, h.perQueue]
  · rw [update_of_ne hvw, h.perQueue]

omit [DecidableEq ω] in
theorem reserve (h : Counted cfg pendingJobs submit worker jobs queuedLogicalJobs pendingLogicalJobs reserving)
    {i : ι} (hi : (submit i).reserved = false) (hfits : cfg.fits i pendingJobs = true) :
    Counted cfg (addSize pendingJobs (cfg.logicalJobs i)) (update submit i .select) worker jobs queuedLogicalJobs
      pendingLogicalJobs (i :: reserving) := by
  have hmax := cfg.max_lt
  have hle := Config.fits_iff.mp hfits
  have hnot : i ∉ reserving := by
    rw [h.mem, hi]
    nofun
  rw [addSize_of_lt (by omega)]
  refine { h with
    mem := fun j => ?_
    nodup := List.nodup_cons.mpr ⟨hnot, h.nodup⟩
    pending := by rw [h.pending, Config.logical_cons]; omega
    le_max := hle }
  by_cases hji : j = i
  · subst hji
    rw [update_self]
    exact iff_of_true List.mem_cons_self rfl
  · rw [update_of_ne hji, List.mem_cons, ← h.mem]
    simp [hji]

omit [DecidableEq ω] in
/-- 予約していた呼び出しが、予約の並びを離れる。 -/
theorem mem_erase (h : Counted cfg pendingJobs submit worker jobs queuedLogicalJobs pendingLogicalJobs reserving)
    {i : ι} {pc : SubmitPc ω} (hpc : pc.reserved = false) (j : ι) :
    j ∈ reserving.erase i ↔ (update submit i pc j).reserved = true := by
  rw [List.Nodup.mem_erase_iff h.nodup]
  by_cases hji : j = i
  · subst hji
    simp [hpc]
  · simp [hji, h.mem]

omit [DecidableEq ω] in
theorem rollback (h : Counted cfg pendingJobs submit worker jobs queuedLogicalJobs pendingLogicalJobs reserving)
    {i : ι} {pc : SubmitPc ω} (hi : (submit i).reserved = true) (hpc : pc.reserved = false) :
    Counted cfg (subSize pendingJobs (cfg.logicalJobs i)) (update submit i pc) worker jobs queuedLogicalJobs
      pendingLogicalJobs (reserving.erase i) := by
  have hmax := cfg.max_lt
  have hle := h.le_max
  have hsum := h.reserved_le hi
  rw [subSize_of_le (by omega) (by omega)]
  exact { h with
    mem := h.mem_erase hpc
    nodup := h.nodup.erase i
    pending := by omega
    le_max := by omega }

theorem push (h : Counted cfg pendingJobs submit worker jobs queuedLogicalJobs pendingLogicalJobs reserving)
    {i : ι} {w : ω} (hi : (submit i).reserved = true) :
    Counted cfg pendingJobs (update submit i (.unlock w true)) worker (update jobs w (jobs w ++ [i]))
      (update queuedLogicalJobs w (addSize (queuedLogicalJobs w) (cfg.logicalJobs i)))
      (update pendingLogicalJobs w (addSize (pendingLogicalJobs w) (cfg.logicalJobs i))) (reserving.erase i) := by
  have hfit := h.push_fits hi w
  have htotal := cfg.total_change (f := load cfg worker jobs) (g := load cfg worker (update jobs w (jobs w ++ [i]))) w
    fun v hvw => by simp only [load, update_of_ne hvw]
  have hload : load cfg worker (update jobs w (jobs w ++ [i])) w = load cfg worker jobs w + cfg.logicalJobs i := by
    simp only [load, update_self, Config.logical_append, Config.logical_cons, Config.logical_nil]
    omega
  have hsum := h.reserved_le hi
  rw [addSize_of_lt hfit.1, addSize_of_lt hfit.2]
  refine { h with
    mem := h.mem_erase rfl
    nodup := h.nodup.erase i
    pending := by omega
    queued := fun v => ?_
    perQueue := fun v => ?_ }
  · by_cases hvw : v = w
    · subst hvw
      simp [h.queued]
    · simp [hvw, h.queued]
  · by_cases hvw : v = w
    · subst hvw
      simp only [update_self, h.perQueue, Config.logical_append, Config.logical_cons, Config.logical_nil]
      omega
    · simp [hvw, h.perQueue]

omit [DecidableEq ι] in
theorem pop (h : Counted cfg pendingJobs submit worker jobs queuedLogicalJobs pendingLogicalJobs reserving)
    {i : ι} {w : ω} (hworker : worker w = .pop) (hhead : (jobs w).head? = some i) :
    Counted cfg pendingJobs submit (update worker w (.unlock i)) (update jobs w (jobs w).tail)
      (update queuedLogicalJobs w (subSize (queuedLogicalJobs w) (cfg.logicalJobs i))) pendingLogicalJobs reserving := by
  obtain ⟨rest, hrest⟩ := List.head?_eq_some_iff.mp hhead
  have hmax := cfg.max_lt
  have hle := h.le_max
  have hqueued := h.queued w
  have hload : load cfg (update worker w (.unlock i)) (update jobs w (jobs w).tail) = load cfg worker jobs := by
    funext v
    by_cases hvw : v = w
    · subst hvw
      simp only [load, update_self, hrest, List.tail_cons, hworker, WorkerPc.executing, Config.logical_cons,
        Config.logical_nil]
      omega
    · simp only [load, update_of_ne hvw]
  have hbound := h.load_le w
  simp only [load, hrest, Config.logical_cons] at hbound
  rw [hrest, Config.logical_cons] at hqueued
  rw [subSize_of_le (by omega) (by omega)]
  refine { h with
    pending := hload ▸ h.pending
    queued := fun v => ?_
    perQueue := fun v => ?_ }
  · by_cases hvw : v = w
    · subst hvw
      simp only [update_self, hrest, List.tail_cons]
      omega
    · simp [hvw, h.queued]
  · by_cases hvw : v = w
    · subst hvw
      simp only [update_self, h.perQueue, hrest, List.tail_cons, hworker, WorkerPc.unsubtracted, Config.logical_cons,
        Config.logical_nil]
      omega
    · simp [hvw, h.perQueue]

omit [DecidableEq ι] in
theorem subtract (h : Counted cfg pendingJobs submit worker jobs queuedLogicalJobs pendingLogicalJobs reserving)
    {i : ι} {w : ω} (hworker : worker w = .subtract i) :
    Counted cfg pendingJobs submit (update worker w (.release i)) jobs queuedLogicalJobs
      (update pendingLogicalJobs w (subSize (pendingLogicalJobs w) (cfg.logicalJobs i))) reserving := by
  have hmax := cfg.max_lt
  have hle := h.le_max
  have hbound := h.load_le w
  have hqueue := h.perQueue w
  simp only [load, hworker, WorkerPc.executing, WorkerPc.unsubtracted, Config.logical_cons, Config.logical_nil]
    at hbound hqueue
  have hload : load cfg (update worker w (.release i)) jobs = load cfg worker jobs := by
    funext v
    by_cases hvw : v = w
    · subst hvw
      simp only [load, update_self, hworker, WorkerPc.executing]
    · simp only [load, update_of_ne hvw]
  rw [subSize_of_le (by omega) (by omega)]
  refine { h with pending := hload ▸ h.pending, perQueue := fun v => ?_ }
  by_cases hvw : v = w
  · subst hvw
    simp only [update_self, WorkerPc.unsubtracted, Config.logical_nil]
    omega
  · simp [hvw, h.perQueue]

omit [DecidableEq ι] in
theorem release (h : Counted cfg pendingJobs submit worker jobs queuedLogicalJobs pendingLogicalJobs reserving)
    {i : ι} {w : ω} (hworker : worker w = .release i) :
    Counted cfg (subSize pendingJobs (cfg.logicalJobs i)) submit (update worker w .lock) jobs queuedLogicalJobs
      pendingLogicalJobs reserving := by
  have hmax := cfg.max_lt
  have hle := h.le_max
  have hpending := h.pending
  have htotal := cfg.total_change (f := load cfg worker jobs) (g := load cfg (update worker w .lock) jobs) w
    fun v hvw => by simp only [load, update_of_ne hvw]
  have hload : load cfg worker jobs w = load cfg (update worker w .lock) jobs w + cfg.logicalJobs i := by
    simp only [load, update_self, hworker, WorkerPc.executing, Config.logical_cons, Config.logical_nil]
    omega
  rw [subSize_of_le (by omega) (by omega)]
  refine { h with pending := by omega, le_max := by omega, perQueue := fun v => ?_ }
  by_cases hvw : v = w
  · subst hvw
    rw [update_self, h.perQueue, hworker]
    rfl
  · rw [update_of_ne hvw, h.perQueue]

end Counted

theorem reachable_counted (h : (workerPool κ cfg).Reachable s) :
    Counted cfg s.pendingJobs s.submit s.worker s.jobs s.queuedLogicalJobs s.pendingLogicalJobs s.reserving := by
  refine h.invariant (I := fun s => Counted cfg s.pendingJobs s.submit s.worker s.jobs s.queuedLogicalJobs
    s.pendingLogicalJobs s.reserving) ?_ ?_
  · rintro _ rfl
    refine ⟨fun _ => iff_of_false List.not_mem_nil nofun, List.nodup_nil, ?_, Nat.zero_le _, fun _ => rfl, fun _ => rfl⟩
    show 0 = 0 + cfg.total fun _ => 0
    rw [Config.total_zero]
  intro s a _ hs hb _
  cases a with
  | check i | refuseClosed i | refuseFull i p | retry i p | lock i w => exact hs.keepSubmit (by rw [hb.1]; rfl)
  | load i | select i w | throwPush i w | unwind i w => exact hs.keepSubmit (by rw [show s.submit i = _ from hb]; rfl)
  | reserve i p =>
      obtain ⟨hpc, hfits, hpending⟩ := hb
      exact hs.reserve (by rw [hpc]; rfl) (hpending ▸ hfits)
  | recheck i w =>
      refine hs.keepSubmit ?_
      rw [show s.submit i = _ from hb]
      split <;> rfl
  | rollback i w | release i => exact hs.rollback (by rw [show s.submit i = _ from hb]; rfl) rfl
  | push i w => exact hs.push (by rw [show s.submit i = _ from hb]; rfl)
  | unlock i w b =>
      refine hs.keepSubmit ?_
      rw [show s.submit i = _ from hb]
      cases b <;> rfl
  | workerLock w | workerNonEmpty w | workerDrained w | workerSleep w =>
      exact hs.keepWorker (by rw [hb.1]; rfl) (by rw [hb.1]; rfl)
  | workerWake w | workerUnlock w i | workerRun w i | workerExit w =>
      exact hs.keepWorker (by rw [show s.worker w = _ from hb]; rfl) (by rw [show s.worker w = _ from hb]; rfl)
  | workerPop w i => exact hs.pop hb.1 hb.2
  | workerSubtract w i => exact hs.subtract hb
  | workerRelease w i => exact hs.release hb
  | _ => exact hs

theorem reachable_inRange {a : Act ι ω κ} (h : (workerPool κ cfg).Reachable s) (henabled : enabled cfg s a) :
    inRange cfg s a := by
  have hmax := cfg.max_lt
  have hcounted := reachable_counted h
  have hreserved : ∀ {i}, (s.submit i).reserved = true → cfg.logicalJobs i ≤ s.pendingJobs := by
    intro i hi
    have := hcounted.reserved_le hi
    omega
  cases a with
  | reserve i p | retry i p =>
      have := Config.fits_iff.mp (show cfg.fits i p = true by first | exact henabled.2.1 | exact henabled.2)
      exact show p + cfg.logicalJobs i < 2 ^ 64 by omega
  | rollback i w | release i => exact hreserved (by rw [show s.submit i = _ from henabled]; rfl)
  | push i w => exact (hcounted.push_fits (by rw [show s.submit i = _ from henabled]; rfl) w).symm
  | workerPop w i =>
      obtain ⟨rest, hrest⟩ := List.head?_eq_some_iff.mp henabled.2
      show cfg.logicalJobs i ≤ s.queuedLogicalJobs w
      rw [hcounted.queued w, hrest, Config.logical_cons]
      exact Nat.le_add_right _ _
  | workerSubtract w i =>
      show cfg.logicalJobs i ≤ s.pendingLogicalJobs w
      rw [hcounted.perQueue w, show s.worker w = _ from henabled]
      exact Nat.le_add_left _ _
  | workerRelease w i =>
      refine le_trans ?_ (hcounted.load_le w)
      rw [load, show s.worker w = _ from henabled]
      exact Nat.le_add_left _ _
  | _ => trivial

/-! ## 一つの呼び出しの取り分 -/

/-- 呼び出し自身の動作。 -/
def Act.submitter : Act ι ω κ → Option ι
  | .check i | .refuseClosed i | .load i | .refuseFull i _ | .reserve i _ | .retry i _ | .select i _ | .lock i _ |
    .recheck i _ | .rollback i _ | .push i _ | .unlock i _ _ | .throwPush i _ | .unwind i _ | .release i => some i
  | _ => none

/-- 実行の中で、呼び出し `i` 自身の動作が数 `counter` を変えた分。 -/
def ownChange (cfg : Config ι ω) (i : ι) (counter : State ι ω κ → Nat) : State ι ω κ → List (Act ι ω κ) → Int
  | _, [] => 0
  | s, a :: as =>
      (if a.submitter = some i then (counter (next cfg s a) : Int) - counter s else 0) +
        ownChange cfg i counter (next cfg s a) as

/-- 自身の動作が取り分 `share` の変化だけ数を変え、ほかの動作が取り分を変えないなら、実行を通した変化は取り分の差である。 -/
theorem ownChange_eq {i : ι} {counter share : State ι ω κ → Nat}
    (hown : ∀ s a, (workerPool κ cfg).Reachable s → enabled cfg s a → a.submitter = some i →
      counter (next cfg s a) + share s = counter s + share (next cfg s a))
    (hother : ∀ s a, enabled cfg s a → a.submitter ≠ some i → share (next cfg s a) = share s)
    {acts : List (Act ι ω κ)} {s s' : State ι ω κ} (hs : (workerPool κ cfg).Reachable s)
    (h : (workerPool κ cfg).exec s acts = some s') : ownChange cfg i counter s acts = share s' - share s := by
  induction acts generalizing s with
  | nil =>
      obtain rfl := Option.some.inj h
      simp [ownChange]
  | cons a as ih =>
      obtain ⟨henabled, hrest⟩ := Machine.exec_cons_eq_some h
      have hih := ih (.step hs henabled trivial) hrest
      rw [ownChange]
      split
      next hself =>
        have := hown s a hs henabled hself
        simp only [workerPool] at hih
        omega
      next hself =>
        have := hother s a henabled hself
        simp only [workerPool] at hih
        omega

theorem submit_next_of_ne {a : Act ι ω κ} {i : ι} (h : a.submitter ≠ some i) :
    (next cfg s a).submit i = s.submit i := by
  cases a with
  | check j | refuseClosed j | load j | refuseFull j _ | reserve j _ | retry j _ | select j _ | lock j _ | recheck j _
  | rollback j _ | push j _ | unlock j _ _ | throwPush j _ | unwind j _ | release j =>
      exact update_of_ne (fun hij : i = j => h (by rw [hij]; rfl)) _ _
  | _ => rfl

theorem mem_pushed_next {a : Act ι ω κ} {i : ι} {w : ω} (h : ∀ v, a ≠ .push i v) :
    i ∈ (next cfg s a).pushed w ↔ i ∈ s.pushed w := by
  cases a with
  | push j v =>
      have hij : i ≠ j := fun hij => h v (by rw [hij])
      by_cases hwv : w = v
      · subst hwv
        simp [next, hij]
      · simp [next, hwv]
  | _ => exact Iff.rfl

/-- `pending_jobs_` の中の、呼び出し `i` の取り分。 -/
def pendingShare (cfg : Config ι ω) (i : ι) (s : State ι ω κ) : Nat :=
  if (s.submit i).reserved || (s.submit i).queued then cfg.logicalJobs i else 0

/-- 列 `w` の数の中の、呼び出し `i` の取り分。 -/
def queueShare (cfg : Config ι ω) (i : ι) (w : ω) (s : State ι ω κ) : Nat :=
  if i ∈ s.pushed w then cfg.logicalJobs i else 0

theorem pendingJobs_next {a : Act ι ω κ} {i : ι} (h : (workerPool κ cfg).Reachable s) (henabled : enabled cfg s a)
    (hself : a.submitter = some i) :
    (next cfg s a).pendingJobs + pendingShare cfg i s = s.pendingJobs + pendingShare cfg i (next cfg s a) := by
  have hmax := cfg.max_lt
  have hcounted := reachable_counted h
  have hle := hcounted.le_max
  cases a with
  | reserve j p =>
      obtain rfl := Option.some.inj hself
      obtain ⟨hpc, hfits, rfl⟩ := henabled
      have := Config.fits_iff.mp hfits
      simp only [next, pendingShare, hpc, update_self, SubmitPc.reserved, SubmitPc.queued]
      rw [addSize_of_lt (by omega)]
      rfl
  | rollback j _ | release j =>
      obtain rfl := Option.some.inj hself
      have hpc : s.submit j = _ := henabled
      have := hcounted.reserved_le (i := j) (by rw [hpc]; rfl)
      simp only [next, pendingShare, hpc, update_self, SubmitPc.reserved, SubmitPc.queued]
      rw [subSize_of_le (by omega) (by omega)]
      simp only [Bool.or_false, if_true, Bool.false_eq_true, if_false]
      omega
  | recheck j _ =>
      obtain rfl := Option.some.inj hself
      have hpc : s.submit j = _ := henabled
      simp only [next, pendingShare, hpc, update_self]
      cases s.accepting <;> rfl
  | unlock j _ accepted =>
      obtain rfl := Option.some.inj hself
      have hpc : s.submit j = _ := henabled
      simp only [next, pendingShare, hpc, update_self]
      cases accepted <;> rfl
  | check j | refuseClosed j | refuseFull j _ | retry j _ | lock j _ =>
      obtain rfl := Option.some.inj hself
      simp only [next, pendingShare, henabled.1, update_self]
      rfl
  | load j | select j _ | push j _ | throwPush j _ | unwind j _ =>
      obtain rfl := Option.some.inj hself
      have hpc : s.submit j = _ := henabled
      simp only [next, pendingShare, hpc, update_self]
      rfl
  | _ => cases hself

theorem queueCounters_next {a : Act ι ω κ} {i : ι} (w : ω) (h : (workerPool κ cfg).Reachable s)
    (henabled : enabled cfg s a) (hself : a.submitter = some i) :
    (next cfg s a).queuedLogicalJobs w + queueShare cfg i w s = s.queuedLogicalJobs w + queueShare cfg i w (next cfg s a) ∧
      (next cfg s a).pendingLogicalJobs w + queueShare cfg i w s =
        s.pendingLogicalJobs w + queueShare cfg i w (next cfg s a) := by
  cases a with
  | push j v =>
      obtain rfl := Option.some.inj hself
      have hpc : s.submit j = .push v := henabled
      have hfit := (reachable_counted h).push_fits (i := j) (by rw [hpc]; rfl) v
      have hnew : j ∉ s.pushed w := by
        intro hmem
        have := ((reachable_recorded h).queued j).mp ⟨w, hmem⟩
        rw [hpc] at this
        cases this
      by_cases hwv : w = v
      · subst hwv
        simp [next, queueShare, hnew, addSize_of_lt hfit.1, addSize_of_lt hfit.2]
      · simp [next, queueShare, hnew, hwv]
  | check j | refuseClosed j | load j | refuseFull j _ | reserve j _ | retry j _ | select j _ | lock j _ | recheck j _
  | rollback j _ | unlock j _ _ | throwPush j _ | unwind j _ | release j => exact ⟨rfl, rfl⟩
  | _ => cases hself

theorem pendingShare_next_of_ne {a : Act ι ω κ} {i : ι} (h : a.submitter ≠ some i) :
    pendingShare cfg i (next cfg s a) = pendingShare cfg i s := by
  simp only [pendingShare, submit_next_of_ne h]

theorem queueShare_next_of_ne {a : Act ι ω κ} {i : ι} {w : ω} (h : a.submitter ≠ some i) :
    queueShare cfg i w (next cfg s a) = queueShare cfg i w s := by
  have hpushed : i ∈ (next cfg s a).pushed w ↔ i ∈ s.pushed w := mem_pushed_next fun v hv => h (by rw [hv]; rfl)
  simp only [queueShare, hpushed]

/-- 予約しておらず、積んでもいない呼び出しは、どの数も変えていない。 -/
theorem ownChange_unreserved {acts : List (Act ι ω κ)} {i : ι} (h : (workerPool κ cfg).exec .initial acts = some s)
    (hreserved : (s.submit i).reserved = false) (hqueued : (s.submit i).queued = false) :
    (∀ w, i ∉ s.pushed w) ∧ ownChange cfg i (·.pendingJobs) .initial acts = 0 ∧
      ∀ w, ownChange cfg i (·.queuedLogicalJobs w) .initial acts = 0 ∧
        ownChange cfg i (·.pendingLogicalJobs w) .initial acts = 0 := by
  have hinit : (workerPool κ cfg).Reachable .initial := .init rfl
  have hreach := Machine.reachable_of_exec hinit h
  have hpushed : ∀ w, i ∉ s.pushed w := by
    intro w hmem
    have := ((reachable_recorded hreach).queued i).mp ⟨w, hmem⟩
    rw [hqueued] at this
    cases this
  have hpending : pendingShare cfg i s = 0 := by simp [pendingShare, hreserved, hqueued]
  have hqueue : ∀ w, queueShare cfg i w s = 0 := fun w => if_neg (hpushed w)
  refine ⟨hpushed, ?_, fun w => ⟨?_, ?_⟩⟩
  · rw [ownChange_eq (fun _ _ => pendingJobs_next) (fun _ _ _ => pendingShare_next_of_ne) hinit h, hpending]
    rfl
  · rw [ownChange_eq (fun _ _ hs ha hself => (queueCounters_next w hs ha hself).1)
      (fun _ _ _ => queueShare_next_of_ne) hinit h, hqueue w]
    rfl
  · rw [ownChange_eq (fun _ _ hs ha hself => (queueCounters_next w hs ha hself).2)
      (fun _ _ _ => queueShare_next_of_ne) hinit h, hqueue w]
    rfl

/-- 断られたか、例外で終わった呼び出しは、どの数も変えていない。 -/
theorem ownChange_refused {acts : List (Act ι ω κ)} {i : ι} (h : (workerPool κ cfg).exec .initial acts = some s)
    (hi : s.submit i = .returned false ∨ s.submit i = .threw) :
    ownChange cfg i (·.pendingJobs) .initial acts = 0 ∧
      ∀ w, ownChange cfg i (·.queuedLogicalJobs w) .initial acts = 0 ∧
        ownChange cfg i (·.pendingLogicalJobs w) .initial acts = 0 := by
  have hnot : (s.submit i).reserved = false ∧ (s.submit i).queued = false := by
    rcases hi with hi | hi <;> rw [hi] <;> exact ⟨rfl, rfl⟩
  exact (ownChange_unreserved h hnot.1 hnot.2).2

end WorkerPool

end Xrpc.Server
