import Xrpc.Client.Lemmas.Deadlines

/-!
# 期限の定理
-/

namespace Xrpc.Client
open Xrpc.Lib Xrpc.Protocol

/-- 期限が読んだ時刻と時限の和より前にならないのは、和が 64 ビットに収まるときに限る。和が収まり、`poll` に渡す時限が 2^32 ミリ秒に
満たない実行では、どの `DeadlineExceeded` も、その時刻の一ミリ秒前より早くは出ない。時限がなければ `DeadlineExceeded` は出ない。 -/
theorem deadlines_not_early (cfg : TimedConfig) :
    (∀ now : Int, 0 ≤ now → now < 2 ^ 63 → 0 < cfg.timeout.toInt →
      ((∃ d, resolveDeadline (Int64.ofInt now) cfg.defaultTimeout cfg.callTimeout = some d ∧
          now + cfg.timeout.toInt * 1000000 ≤ d.toInt) ↔
        now + cfg.timeout.toInt * 1000000 < 2 ^ 63)) ∧
    ∀ s, (timedCall cfg).Reach (fun s a => a.Fits cfg s) s → ∀ status time, s.pc = .exceeded status time →
      0 < cfg.timeout.toInt ∧ s.resolvedAt + cfg.timeout.toInt * 1000000 - 1000000 ≤ time := by
  refine ⟨fun now hnow hlt hpos => ⟨?_, fun hfits => ?_⟩, fun s hs status time hpc => ?_⟩
  · rintro ⟨d, -, hle⟩
    have := d.toInt_lt
    omega
  · obtain ⟨d, hd, heq⟩ := resolveDeadline_fits hnow hpos hfits
    exact ⟨d, hd, heq.ge⟩
  · have hpunctual := reach_punctual hs
    obtain ⟨-, hnone, hsome⟩ := hpunctual.resolved (by rw [hpc]; nofun)
    have hbudget := hpunctual.budget
    rw [hpc] at hbudget
    obtain ⟨hdeadline, hreach⟩ := hbudget
    have hpos : 0 < cfg.timeout.toInt := by
      by_contra hle
      exact hdeadline (hnone (not_lt.mp hle))
    obtain ⟨d, hd, heq⟩ := hsome hpos
    have := hreach d hd
    exact ⟨hpos, by omega⟩

/-- 時刻 0 の状態。 -/
def timedStart : TimedState := ⟨0, 0, none, .resolve⟩

/-- 接続を待ち始めるまでの歩み。 -/
def untilPoll (timeout : Int64) : List TimedAct :=
  [.resolve, .encoded, .checkDeadline, .computeTimeout, .startConnect timeout, .inProgress timeout]

instance (cfg : TimedConfig) (s : TimedState) (a : TimedAct) :
    Decidable (((timedCall cfg).restrict fun s a => a.Fits cfg s).enabled s a) :=
  inferInstanceAs (Decidable (a.enabled s ∧ a.Fits cfg s))

/-- 5 ミリ秒の時限の接続は、時刻 5000000 に時間切れになる。 -/
theorem deadlines_not_early_connect :
    ∃ s time, (timedCall ⟨0, 5⟩).Reach (fun s a => a.Fits ⟨0, 5⟩ s) s ∧
      s.pc.outcome = some (⟨.deadlineExceeded, text "connect timed out"⟩, time) ∧
      s.resolvedAt + 5 * 1000000 - 1000000 ≤ time := by
  obtain ⟨s, hs, hp⟩ := Machine.exists_reachable_of_exec (M := (timedCall ⟨0, 5⟩).restrict fun s a => a.Fits ⟨0, 5⟩ s)
    (s := timedStart) (untilPoll 5 ++ [.tick 5000000, .pollTimedOut 5 0])
    (fun s => decide (s.pc = .exceeded ⟨.deadlineExceeded, text "connect timed out"⟩ 5000000))
    (.init ⟨le_rfl, by decide, rfl⟩) (by decide)
  have hpc := of_decide_eq_true hp
  have hreach := Machine.reach_of_restrict hs
  exact ⟨s, _, hreach, by rw [hpc]; rfl, ((deadlines_not_early ⟨0, 5⟩).2 s hreach _ _ hpc).2⟩

/-- `milliseconds::max()` の時限では、期限が時刻 0 より前になり、最初の確認で終わる。2^32 ミリ秒の時限では、`poll` に 0 を渡し、
時刻 0 に時間切れになる。 -/
theorem huge_timeout_expires_at_once :
    resolveDeadline 0 0 9223372036854775807 = some (-1000000) ∧
    (∃ s, (timedCall ⟨0, 9223372036854775807⟩).Reachable s ∧ s.pc.outcome = some (deadlineExceededStatus, 0)) ∧
    ∃ s, (timedCall ⟨0, 4294967296⟩).Reachable s ∧
      s.pc.outcome = some (⟨.deadlineExceeded, text "connect timed out"⟩, 0) := by
  refine ⟨by decide, ?_, ?_⟩
  · obtain ⟨s, hs, hp⟩ := Machine.exists_reachable_of_exec (M := timedCall ⟨0, 9223372036854775807⟩) (s := timedStart)
      [.resolve, .encoded, .checkDeadline] (fun s => decide (s.pc.outcome = some (deadlineExceededStatus, 0)))
      (.init ⟨le_rfl, by decide, rfl⟩) (by decide)
    exact ⟨s, hs, of_decide_eq_true hp⟩
  · obtain ⟨s, hs, hp⟩ := Machine.exists_reachable_of_exec (M := timedCall ⟨0, 4294967296⟩) (s := timedStart)
      (untilPoll 4294967296 ++ [.pollTimedOut 4294967296 0])
      (fun s => decide (s.pc.outcome = some (⟨.deadlineExceeded, text "connect timed out"⟩, 0)))
      (.init ⟨le_rfl, by decide, rfl⟩) (by decide)
    exact ⟨s, hs, of_decide_eq_true hp⟩

end Xrpc.Client
