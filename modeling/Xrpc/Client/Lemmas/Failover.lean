import Xrpc.Client.RpcClient

/-!
# 試みの順序
-/

namespace Xrpc.Client
open Xrpc.Lib Xrpc.Protocol Function

variable {cfg : RpcConfig} {s : FailoverState} {f : Nat}

namespace FailoverState

theorem loop_client (offset : Nat) (r : CallAttemptResult) : (s.loop cfg f offset r).client = s.client := by
  unfold loop
  split <;> rfl

theorem resolve_client : (s.resolve cfg f).client = s.client := by
  unfold resolve
  split
  · rfl
  · exact loop_client _ _

theorem finish_client (offset : Nat) (r : CallAttemptResult) : (s.finish cfg f offset r).client = s.client := by
  unfold finish
  split
  · rfl
  · exact loop_client _ _

end FailoverState

/-- 切り替えの実行の中の輸送路は、輸送路の遷移系の実行をする。 -/
def clientSimulation (cfg : RpcConfig) :
    Machine.Simulation (failover cfg) (fun _ _ => True) (client cfg.config) (fun _ _ => True) where
  view := FailoverState.client
  act _
    | .call a => some a
    | _ => none
  init s hs := by
    obtain rfl : s = .initial := hs
    rfl
  silent s a _ _ _ hact := by
    cases a with
    | resolve f => exact FailoverState.resolve_client
    | call a => cases hact
    | finish f offset result => exact FailoverState.finish_client offset result
  step s a b _ h _ hact := by
    cases a with
    | call a =>
        obtain rfl := Option.some.inj hact
        exact ⟨h.1, trivial, rfl⟩
    | _ => cases hact

theorem reachable_client (h : (failover cfg).Reachable s) : (client cfg.config).Reachable s.client :=
  (clientSimulation cfg).reach h

/-- 試みは順に始まり、次の試みは、前の試みが送っていないと告げて返った後に始まる。`calls` は、試みごとの輸送路での位置である。 -/
structure Attempts (rpc : RpcCall) (pc : FailoverPc) (attempted : List Nat) (calls : Nat → CallPc) : Prop where
  attempted_eq : attempted = (List.range attempted.length).map rpc.index
  length_le : attempted.length ≤ rpc.endpointCount
  idle : pc = .idle → attempted = []
  attempt : ∀ offset, pc = .attempt offset → attempted.length = offset + 1
  unstarted : ∀ offset, attempted.length ≤ offset → calls offset = .idle
  notSent : ∀ offset, offset + 1 < attempted.length → ∃ r, calls offset = .returned r ∧ r.committed = false

namespace Attempts

variable {rpc : RpcCall} {pc : FailoverPc} {attempted : List Nat} {calls : Nat → CallPc}

theorem returned (h : Attempts rpc pc attempted calls) (r : CallAttemptResult) :
    Attempts rpc (.returned r) attempted calls :=
  { h with idle := nofun, attempt := nofun }

/-- 送ったかもしれないのは、最後に始めた試みだけである。 -/
theorem last_of_maySend (h : Attempts rpc pc attempted calls) {offset : Nat} (hmay : (calls offset).maySend) :
    offset + 1 = attempted.length := by
  rcases Nat.lt_trichotomy (offset + 1) attempted.length with hlt | heq | hgt
  · obtain ⟨r, hcall, hr⟩ := h.notSent offset hlt
    rw [hcall] at hmay
    exact absurd hmay (by simp [CallPc.maySend, hr])
  · exact heq
  · rw [h.unstarted offset (Nat.lt_succ_iff.mp hgt)] at hmay
    cases hmay

/-- 次の試みに進む。 -/
theorem advance (h : Attempts rpc pc attempted calls) (hlt : attempted.length < rpc.endpointCount)
    (hlast : ∀ offset, offset + 1 = attempted.length → ∃ r, calls offset = .returned r ∧ r.committed = false) :
    Attempts rpc (.attempt attempted.length) (attempted ++ [rpc.index attempted.length]) calls := by
  have hlen : (attempted ++ [rpc.index attempted.length]).length = attempted.length + 1 := List.length_append
  constructor
  · rw [hlen, List.range_succ, List.map_append, ← h.attempted_eq]
    rfl
  · rw [hlen]
    exact hlt
  · exact nofun
  · intro offset hpc
    rw [hlen, FailoverPc.attempt.inj hpc]
  · intro offset hle
    rw [hlen] at hle
    exact h.unstarted offset ((Nat.le_succ _).trans hle)
  · intro offset hoffset
    rw [hlen] at hoffset
    rcases Nat.lt_succ_iff_lt_or_eq.mp hoffset with hoffset | heq
    · exact h.notSent offset hoffset
    · exact hlast offset heq

/-- 輸送路の動作。試みの番でない呼び出しは始まらない。 -/
theorem call {cfg : Config} {s : State} {a : Action} (h : Attempts rpc pc attempted fun offset => s.pc ⟨f, offset⟩)
    (ha : a.enabled cfg s) (hstart : ∀ offset, a.starts = some ⟨f, offset⟩ → pc = .attempt offset) :
    Attempts rpc pc attempted fun offset => (a.next cfg s).pc ⟨f, offset⟩ := by
  refine { h with unstarted := ?_, notSent := ?_ }
  · intro offset hle
    refine pc_idle ha (fun hc => ?_) (h.unstarted offset hle)
    rw [h.attempt offset (hstart offset hc)] at hle
    exact Nat.not_succ_le_self offset hle
  · intro offset hlt
    obtain ⟨r, hpc, hr⟩ := h.notSent offset hlt
    exact ⟨r, pc_returned ha hpc, hr⟩

end Attempts

abbrev FailoverState.Attempts (cfg : RpcConfig) (s : FailoverState) (f : Nat) : Prop :=
  Client.Attempts (cfg.rpcs f) (s.pc f) (s.attempted f) fun offset => s.client.pc ⟨f, offset⟩

namespace FailoverState

theorem attempts_returned (h : s.Attempts cfg f) (f' : Nat) (r : CallAttemptResult) :
    FailoverState.Attempts cfg { s with pc := update s.pc f' (.returned r) } f := by
  dsimp only [FailoverState.Attempts]
  by_cases hf : f = f'
  · subst hf
    rw [update_self]
    exact h.returned r
  · rw [update_of_ne hf]
    exact h

theorem attempts_loop (h : s.Attempts cfg f) {f' offset : Nat} (r : CallAttemptResult)
    (hlast : f = f' → (s.attempted f).length = offset ∧ ∀ offset', offset' + 1 = offset →
      ∃ r, s.client.pc ⟨f, offset'⟩ = .returned r ∧ r.committed = false) :
    (s.loop cfg f' offset r).Attempts cfg f := by
  unfold loop
  split
  next hlt =>
    dsimp only [FailoverState.Attempts]
    by_cases hf : f = f'
    · subst hf
      obtain ⟨rfl, hlast⟩ := hlast rfl
      rw [update_self, update_self]
      exact h.advance hlt hlast
    · rw [update_of_ne hf, update_of_ne hf]
      exact h
  next => exact attempts_returned h f' r

end FailoverState

theorem reachable_attempts (h : (failover cfg).Reachable s) (f : Nat) : s.Attempts cfg f := by
  refine h.invariant (I := fun s => ∀ f, s.Attempts cfg f) ?_ ?_ f
  · rintro s ⟨rfl⟩ f
    exact ⟨rfl, Nat.zero_le _, fun _ => rfl, nofun, fun _ _ => rfl, nofun⟩
  · intro s a _ hs ha _ f
    cases a with
    | resolve f' =>
        show (s.resolve cfg f').Attempts cfg f
        unfold FailoverState.resolve
        split
        next => exact FailoverState.attempts_returned (hs f) f' _
        next =>
          refine FailoverState.attempts_loop (hs f) _ fun hf => ?_
          subst hf
          exact ⟨congrArg List.length ((hs f).idle ha), nofun⟩
    | call a => exact (hs f).call ha.1 fun offset hc => ha.2 _ hc
    | finish f' offset result =>
        obtain ⟨hpc, hresult⟩ := ha
        show (s.finish cfg f' offset result).Attempts cfg f
        unfold FailoverState.finish
        split
        next => exact FailoverState.attempts_returned (hs f) f' result
        next hcommitted =>
          refine FailoverState.attempts_loop (hs f) result fun hf => ?_
          subst hf
          refine ⟨(hs f).attempt offset hpc, fun offset' hlast => ?_⟩
          obtain rfl := Nat.succ.inj hlast
          exact ⟨result, hresult, Bool.eq_false_iff.mpr hcommitted⟩

/-- 試みる添字は、重ならない。 -/
theorem index_injective (rpc : RpcCall) {o o' : Nat} (ho : o < rpc.endpointCount) (ho' : o' < rpc.endpointCount)
    (h : rpc.index o = rpc.index o') : o = o' := by
  have hmod : o ≡ o' [MOD rpc.endpointCount] := Nat.ModEq.add_left_cancel' rpc.start h
  exact Nat.ModEq.eq_of_lt_of_lt hmod ho ho'

end Xrpc.Client
