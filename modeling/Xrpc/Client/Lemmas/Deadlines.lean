import Xrpc.Client.Deadlines
import Xrpc.Io.Lemmas.Socket

/-!
# 期限の計算と、時刻とともに進む呼び出しの不変条件
-/

namespace Xrpc.Client
open Xrpc.Lib Xrpc.Protocol Xrpc.Io

/-! ## 折り返しの起こらない計算 -/

theorem toInt_reading {now : Int} (h : 0 ≤ now) (hlt : now < 2 ^ 63) : (Int64.ofInt now).toInt = now :=
  Int64.toInt_ofInt_of_le (by omega) hlt

theorem pos_iff {timeout : Int64} : timeout > 0 ↔ 0 < timeout.toInt := Int64.lt_iff_toInt_lt

/-- 負の値の割り算も、0 の方へ切り捨てる。 -/
theorem tdiv_of_neg {a k : Int} (h : a < 0) : a.tdiv k = -(-a / k) := by
  rw [← Int.tdiv_eq_ediv_of_nonneg (by omega), Int.neg_tdiv, neg_neg]

/-- 和が 64 ビットに収まれば、期限はちょうど時限の後である。 -/
theorem resolveDeadline_fits {now : Int} {defaultTimeout callTimeout : Int64} (h : 0 ≤ now)
    (hpos : 0 < (effectiveTimeout defaultTimeout callTimeout).toInt)
    (hfits : now + (effectiveTimeout defaultTimeout callTimeout).toInt * 1000000 < 2 ^ 63) :
    ∃ d, resolveDeadline (Int64.ofInt now) defaultTimeout callTimeout = some d ∧
      d.toInt = now + (effectiveTimeout defaultTimeout callTimeout).toInt * 1000000 := by
  generalize htimeout : effectiveTimeout defaultTimeout callTimeout = timeout at hpos hfits
  refine ⟨Int64.ofInt now + timeout * NANOS_PER_MILLI, by rw [resolveDeadline, htimeout, if_pos (pos_iff.mpr hpos)], ?_⟩
  have hnanos : (timeout * NANOS_PER_MILLI).toInt = timeout.toInt * 1000000 := by
    rw [Int64.toInt_mul, show NANOS_PER_MILLI.toInt = 1000000 from rfl]
    exact Int.bmod_eq_of_le (by omega) (by omega)
  rw [Int64.toInt_add, hnanos, toInt_reading h (by omega)]
  exact Int.bmod_eq_of_le (by omega) (by omega)

theorem resolveDeadline_none {now defaultTimeout callTimeout : Int64}
    (h : (effectiveTimeout defaultTimeout callTimeout).toInt ≤ 0) :
    resolveDeadline now defaultTimeout callTimeout = none := by
  rw [resolveDeadline, if_neg fun hpos => absurd (pos_iff.mp hpos) (by omega)]

/-- 残りの時限は正であり、その間待てば、期限の一ミリ秒前を過ぎる。 -/
theorem remainingTimeout_spec {d : Int64} {now : Int} (hd : 0 ≤ d.toInt) (h : 0 ≤ now) (hlt : now < 2 ^ 63) :
    0 < (remainingTimeout (some d) (Int64.ofInt now)).toInt ∧
      d.toInt - 1000000 < now + (remainingTimeout (some d) (Int64.ofInt now)).toInt * 1000000 := by
  have hdlt := d.toInt_lt
  have hone : (1 : Int64).toInt = 1 := rfl
  have hsub : (d - Int64.ofInt now).toInt = d.toInt - now := by
    rw [Int64.toInt_sub, toInt_reading h hlt]
    exact Int.bmod_eq_of_le (by omega) (by omega)
  have hdiv : ((d - Int64.ofInt now) / NANOS_PER_MILLI).toInt = (d.toInt - now).tdiv 1000000 := by
    rw [Int64.toInt_div, hsub, show NANOS_PER_MILLI.toInt = 1000000 from rfl]
    rcases lt_or_ge (d.toInt - now) 0 with hneg | hnonneg
    · rw [tdiv_of_neg hneg]
      exact Int.bmod_eq_of_le (by omega) (by omega)
    · rw [Int.tdiv_eq_ediv_of_nonneg hnonneg]
      exact Int.bmod_eq_of_le (by omega) (by omega)
  rw [remainingTimeout]
  split
  next hless =>
    -- 一ミリ秒に満たない残りは、一ミリ秒に切り上げる。
    rw [Int64.lt_iff_toInt_lt, hdiv, hone] at hless
    rw [hone]
    rcases lt_or_ge (d.toInt - now) 0 with hneg | hnonneg
    · omega
    · rw [Int.tdiv_eq_ediv_of_nonneg hnonneg] at hless
      omega
  next hmore =>
    rw [Int64.lt_iff_toInt_lt, hdiv, hone] at hmore
    rw [hdiv]
    rcases lt_or_ge (d.toInt - now) 0 with hneg | hnonneg
    · rw [tdiv_of_neg hneg] at hmore
      omega
    · rw [Int.tdiv_eq_ediv_of_nonneg hnonneg] at hmore ⊢
      omega

/-- `timeval` への変換は、正の時限を変えない。 -/
theorem toTimeval_nanos {timeout : Int64} (hpos : 0 < timeout.toInt) : (toTimeval timeout).nanos = timeout.toInt * 1000000 := by
  have hlt := timeout.toInt_lt
  have hthousand : (1000 : Int64).toInt = 1000 := rfl
  have hzero : (0 : Int64).toInt = 0 := rfl
  have hsec : (timeout / 1000).toInt = timeout.toInt / 1000 := by
    rw [Int64.toInt_div, hthousand, Int.tdiv_eq_ediv_of_nonneg hpos.le]
    exact Int.bmod_eq_of_le (by omega) (by omega)
  have hmillis : (timeout / 1000 * 1000).toInt = timeout.toInt / 1000 * 1000 := by
    rw [Int64.toInt_mul, hsec, hthousand]
    exact Int.bmod_eq_of_le (by omega) (by omega)
  have hrest : (timeout - timeout / 1000 * 1000).toInt = timeout.toInt % 1000 := by
    rw [Int64.toInt_sub, hmillis]
    exact (Int.bmod_eq_of_le (by omega) (by omega)).trans (by omega)
  have husec : ((timeout - timeout / 1000 * 1000) * 1000).toInt = timeout.toInt % 1000 * 1000 := by
    rw [Int64.toInt_mul, hrest, hthousand]
    exact Int.bmod_eq_of_le (by omega) (by omega)
  have hnonpos : ¬ timeout ≤ 0 := fun hle => by
    rw [Int64.le_iff_toInt_le, hzero] at hle
    omega
  rw [toTimeval, if_neg hnonpos]
  dsimp only
  split
  next hnone =>
    -- 正の時限では、秒もマイクロ秒も 0 になることはない。
    have hs := congrArg Int64.toInt hnone.1
    have hu := congrArg Int64.toInt hnone.2
    rw [hsec, hzero] at hs
    rw [husec, hzero] at hu
    omega
  next =>
    rw [Timeval.nanos, hsec, husec]
    omega

/-! ## 時刻とともに進む呼び出し -/

/-- 時刻 `since` から `wait` だけ待てば、期限の一ミリ秒前を過ぎる。 -/
def Reaches (deadline : Option Int64) (since wait : Int) : Prop :=
  ∀ d, deadline = some d → d.toInt - 1000000 < since + wait

theorem Reaches.mono {deadline : Option Int64} {since since' wait : Int} (h : Reaches deadline since wait)
    (hle : since ≤ since') : Reaches deadline since' wait := fun d hd => by
  have := h d hd
  omega

/-- 途中の時限は、期限を守るのに足りる。期限がなければ、時限もない。 -/
def TimedPc.Budget (deadline : Option Int64) (now : Int) : TimedPc → Prop
  | .lockState timeout | .connecting timeout =>
      (deadline = none → timeout.toInt ≤ 0) ∧ Reaches deadline now (timeout.toInt * 1000000)
  | .polling timeout since =>
      deadline ≠ none ∧ 0 < timeout.toInt ∧ timeout.toInt < 2 ^ 32 ∧ since ≤ now ∧
        Reaches deadline since (timeout.toInt * 1000000)
  | .beforeSend tv => (deadline = none → tv = ⟨0, 0⟩) ∧ Reaches deadline now tv.nanos
  | .sending tv since => (deadline = none → tv = ⟨0, 0⟩) ∧ Reaches deadline since tv.nanos
  | .retrying tv => deadline = none → tv = ⟨0, 0⟩
  | .exceeded _ time => deadline ≠ none ∧ Reaches deadline time 0
  | _ => True

theorem TimedPc.Budget.tick {deadline : Option Int64} {now : Int} {pc : TimedPc} (h : pc.Budget deadline now)
    (elapsed : Nat) : pc.Budget deadline (now + elapsed) := by
  cases pc with
  | lockState | connecting | beforeSend => exact ⟨h.1, h.2.mono (by omega)⟩
  | polling => exact ⟨h.1, h.2.1, h.2.2.1, by have := h.2.2.2.1; omega, h.2.2.2.2⟩
  | _ => exact h

/-- 和が 64 ビットに収まった期限と、途中の時限。 -/
structure Punctual (cfg : TimedConfig) (s : TimedState) : Prop where
  now_nonneg : 0 ≤ s.now
  now_lt : s.now < 2 ^ 63
  resolved : s.pc ≠ .resolve →
    0 ≤ s.resolvedAt ∧ (cfg.timeout.toInt ≤ 0 → s.deadline = none) ∧
      (0 < cfg.timeout.toInt → ∃ d, s.deadline = some d ∧ d.toInt = s.resolvedAt + cfg.timeout.toInt * 1000000)
  budget : s.pc.Budget s.deadline s.now

namespace Punctual

variable {cfg : TimedConfig} {s : TimedState}

theorem goto (h : Punctual cfg s) (hpc : s.pc ≠ .resolve) {pc : TimedPc} (hbudget : pc.Budget s.deadline s.now) :
    Punctual cfg (s.goto pc) :=
  ⟨h.now_nonneg, h.now_lt, fun _ => h.resolved hpc, hbudget⟩

/-- 定めた期限は負でない。 -/
theorem deadline_nonneg (h : Punctual cfg s) (hpc : s.pc ≠ .resolve) {d : Int64} (hd : s.deadline = some d) :
    0 ≤ d.toInt := by
  obtain ⟨hresolved, hnone, hsome⟩ := h.resolved hpc
  rcases le_or_gt cfg.timeout.toInt 0 with hle | hpos
  · rw [hnone hle] at hd
    cases hd
  · obtain ⟨d', hd', heq⟩ := hsome hpos
    rw [hd] at hd'
    cases hd'
    omega

theorem remaining (h : Punctual cfg s) (hpc : s.pc ≠ .resolve) :
    (s.deadline = none → (remainingTimeout s.deadline s.reading).toInt ≤ 0) ∧
      Reaches s.deadline s.now ((remainingTimeout s.deadline s.reading).toInt * 1000000) := by
  refine ⟨fun hnone => by rw [hnone]; exact le_rfl, fun d hd => ?_⟩
  rw [hd]
  exact (remainingTimeout_spec (h.deadline_nonneg hpc hd) h.now_nonneg h.now_lt).2

theorem setSendTimeout (h : Punctual cfg s) (hpc : s.pc ≠ .resolve) : Punctual cfg s.setSendTimeout := by
  refine h.goto hpc ⟨fun hnone => by rw [hnone]; rfl, fun d hd => ?_⟩
  obtain ⟨hpos, hreach⟩ := remainingTimeout_spec (h.deadline_nonneg hpc hd) h.now_nonneg h.now_lt
  rw [hd, TimedState.reading, toTimeval_nanos hpos]
  exact hreach

/-- 読んだ時刻が期限を過ぎていれば、早くない。 -/
theorem expire (h : Punctual cfg s) (hpc : s.pc ≠ .resolve) (hexpired : deadlineExpired s.deadline s.reading = true)
    (status : Status) : Punctual cfg (s.exceed status) := by
  refine h.goto hpc ⟨fun hnone => ?_, fun d hd => ?_⟩
  · rw [hnone] at hexpired
    cases hexpired
  rw [hd] at hexpired
  have hle : d.toInt ≤ (Int64.ofInt s.now).toInt := Int64.le_iff_toInt_le.mp (of_decide_eq_true hexpired)
  rw [toInt_reading h.now_nonneg h.now_lt] at hle
  omega

theorem check (h : Punctual cfg s) (hpc : s.pc ≠ .resolve) (status : Status) {t : TimedState} (ht : Punctual cfg t) :
    Punctual cfg (if deadlineExpired s.deadline s.reading then s.exceed status else t) := by
  split
  next hexpired => exact h.expire hpc hexpired status
  next => exact ht

/-- 一つの歩みは、期限と時限を保つ。 -/
theorem step (h : Punctual cfg s) {a : TimedAct} (hb : (timedCall cfg).enabled s a) (hfits : a.Fits cfg s) :
    Punctual cfg ((timedCall cfg).next s a) := by
  cases a with
  | tick elapsed =>
      have hlt : s.now + elapsed < 2 ^ 63 := hb
      exact ⟨by have := h.now_nonneg; show 0 ≤ s.now + (elapsed : Int); omega, hlt, h.resolved, h.budget.tick elapsed⟩
  | resolve =>
      refine ⟨h.now_nonneg, h.now_lt, fun _ => ⟨h.now_nonneg, fun hle => ?_, fun hpos => ?_⟩, trivial⟩
      · exact resolveDeadline_none hle
      · exact resolveDeadline_fits h.now_nonneg hpos hfits
  | encoded | registered =>
      have hpc : s.pc = _ := hb
      exact h.goto (by rw [hpc]; nofun) trivial
  | checkDeadline | checkWrite =>
      have hpc : s.pc = _ := hb
      exact h.check (by rw [hpc]; nofun) _ (h.goto (by rw [hpc]; nofun) trivial)
  | computeTimeout =>
      have hpc : s.pc = _ := hb
      exact h.goto (by rw [hpc]; nofun) (h.remaining (by rw [hpc]; nofun))
  | alreadyConnected timeout | connected timeout | pollReady timeout since | sendDone tv since =>
      have hpc : s.pc = _ := hb
      exact h.goto (by rw [hpc]; nofun) trivial
  | startConnect timeout | connectInterrupted timeout =>
      have hpc : s.pc = _ := hb
      have hbudget := h.budget
      rw [hpc] at hbudget
      exact h.goto (by rw [hpc]; nofun) hbudget
  | inProgress timeout =>
      obtain ⟨hpc, hpositive⟩ := hb
      have hbudget := h.budget
      rw [hpc] at hbudget
      have hpos := pos_iff.mp hpositive
      refine h.goto (by rw [hpc]; nofun) ⟨fun hnone => ?_, hpos, hfits, le_rfl, hbudget.2⟩
      have := hbudget.1 hnone
      omega
  | pollTimedOut timeout since =>
      obtain ⟨hpc, hnonneg, hwaited⟩ := hb
      have hbudget := h.budget
      rw [hpc] at hbudget
      obtain ⟨hsome, hpos, hlt, -, hreach⟩ := hbudget
      rw [Socket.pollTimeout_toInt hpos hlt hnonneg] at hwaited
      refine h.goto (by rw [hpc]; nofun) ⟨hsome, fun d hd => ?_⟩
      have := hreach d hd
      omega
  | pollInterrupted timeout since =>
      have hpc : s.pc = _ := hb
      have hbudget := h.budget
      rw [hpc] at hbudget
      exact h.goto (by rw [hpc]; nofun) ⟨fun hnone => absurd hnone hbudget.1, hbudget.2.2.2.2.mono hbudget.2.2.2.1⟩
  | setSendTimeout =>
      have hpc : s.pc = _ := hb
      exact h.setSendTimeout (by rw [hpc]; nofun)
  | startSend tv =>
      have hpc : s.pc = _ := hb
      have hbudget := h.budget
      rw [hpc] at hbudget
      exact h.goto (by rw [hpc]; nofun) hbudget
  | sendTimedOut tv since =>
      obtain ⟨hpc, hset, hwaited⟩ := hb
      have hbudget := h.budget
      rw [hpc] at hbudget
      refine h.goto (by rw [hpc]; nofun) ⟨fun hnone => hset (hbudget.1 hnone), fun d hd => ?_⟩
      have := hbudget.2 d hd
      omega
  | sendPartly tv since =>
      have hpc : s.pc = _ := hb
      have hbudget := h.budget
      rw [hpc] at hbudget
      exact h.goto (by rw [hpc]; nofun) hbudget.1
  | retry tv =>
      have hpc : s.pc = _ := hb
      have hne : s.pc ≠ .resolve := by rw [hpc]; nofun
      have hbudget := h.budget
      rw [hpc] at hbudget
      show Punctual cfg (TimedAct.next cfg s (.retry tv))
      rw [TimedAct.next]
      split
      next hnone => exact h.goto hne ⟨hbudget, fun d hd => by rw [hnone] at hd; cases hd⟩
      next => exact h.check hne _ (h.setSendTimeout hne)
  | waitTimedOut =>
      obtain ⟨hpc, hexpired⟩ := hb
      exact h.expire (by rw [hpc]; nofun) hexpired _
  | finish => exact h.goto hb.1 trivial

end Punctual

theorem reach_punctual {cfg : TimedConfig} {s : TimedState} (h : (timedCall cfg).Reach (fun s a => a.Fits cfg s) s) :
    Punctual cfg s := by
  refine h.invariant (I := Punctual cfg) ?_ fun s a _ hs hb hfits => hs.step hb hfits
  rintro s ⟨hnonneg, hlt, hpc⟩
  exact ⟨hnonneg, hlt, fun hne => absurd hpc hne, by rw [hpc]; trivial⟩

end Xrpc.Client
