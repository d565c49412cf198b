import Xrpc.Client.Lemmas.Failover
import Xrpc.Client.Lemmas.Received
import Xrpc.Client.Lemmas.Written
import Xrpc.Deployment.Network
import Xrpc.Server.Lemmas.ConnectionStreams

/-!
# 接続の両端

つないだ系の実行は、どのクライアントから見ても、どのサーバーから見ても、それぞれの遷移系の実行である。接続の両端で、書いたものと
受け取ったものが対応する。
-/

namespace Xrpc.Client
open Xrpc.Lib

/-- 切り替えを行うクライアントの動作についての条件。 -/
def FreshCall (s : FailoverState) : FailoverAction → Prop
  | .call a => FreshDescriptor s.client a
  | _ => True

def freshSimulation (cfg : RpcConfig) :
    Machine.Simulation (failover cfg) FreshCall (client cfg.config) FreshDescriptor where
  view := FailoverState.client
  act := (clientSimulation cfg).act
  init := (clientSimulation cfg).init
  silent s a hreach henabled _ hact := (clientSimulation cfg).silent s a hreach.reachable henabled trivial hact
  step s a b hreach henabled hfresh hact := by
    obtain ⟨hb, -, hnext⟩ := (clientSimulation cfg).step s a b hreach.reachable henabled trivial hact
    refine ⟨hb, ?_, hnext⟩
    cases a with
    | call a =>
        obtain rfl : a = b := Option.some.inj hact
        exact hfresh
    | resolve f => cases hact
    | finish f offset r => cases hact

end Xrpc.Client

namespace Xrpc.Deployment
open Xrpc.Lib Xrpc.Protocol Function

variable {κ ℓ : Type} [DecidableEq κ] [DecidableEq ℓ] {cfg : NetworkConfig κ ℓ} {s : Network κ ℓ}

/-! ## 一つの部品から見た動作 -/

def NetworkAct.loopAct (l : ℓ) : NetworkAct κ ℓ → Option Server.ConnectionIoLoop.Act
  | .accept l' _ _ recvRefused => if l' = l then some (.startConnection recvRefused) else none
  | .receive l' n sendRefused recvRefused bytes =>
      if l' = l then some (.received n sendRefused recvRefused bytes) else none
  | .server l' a => if l' = l then some a else none
  | _ => none

def NetworkAct.callAct (k : κ) : NetworkAct κ ℓ → Option Client.FailoverAction
  | .client k' a => if k' = k then some a else none
  | .recv k' g bytes actual _ _ => if k' = k then some (.call (.recv g bytes actual)) else none
  | _ => none

namespace Network

omit [DecidableEq κ] in
theorem stepServer_servers (s : Network κ ℓ) (l l' : ℓ) (a : Server.ConnectionIoLoop.Act) :
    (s.stepServer cfg l' a).servers l = if l' = l then (s.servers l).next (cfg.servers l) a else s.servers l := by
  show update s.servers l' _ l = _
  rw [update_apply]
  split
  next h => subst h; rw [if_pos rfl]
  next h => rw [if_neg (Ne.symm h)]

omit [DecidableEq ℓ] in
theorem stepClient_clients (s : Network κ ℓ) (k k' : κ) (a : Client.FailoverAction) :
    (s.stepClient cfg k' a).clients k = if k' = k then a.next (cfg.clients k) (s.clients k) else s.clients k := by
  show update s.clients k' _ k = _
  rw [update_apply]
  split
  next h => subst h; rw [if_pos rfl]
  next h => rw [if_neg (Ne.symm h)]

/-- サーバー `l` に起こること。 -/
theorem servers_next (cfg : NetworkConfig κ ℓ) (s : Network κ ℓ) (a : NetworkAct κ ℓ) (l : ℓ) :
    (next cfg s a).servers l =
      match a.loopAct l with
      | none => s.servers l
      | some b => (s.servers l).next (cfg.servers l) b := by
  cases a with
  | client k a => rfl
  | recv k g bytes actual l' n => rfl
  | accept l' k g recvRefused =>
      show (s.stepServer cfg l' _).servers l = _
      rw [stepServer_servers, NetworkAct.loopAct]
      split <;> rfl
  | receive l' n sendRefused recvRefused bytes =>
      show (s.stepServer cfg l' _).servers l = _
      rw [stepServer_servers, NetworkAct.loopAct]
      split <;> rfl
  | server l' a =>
      show (s.stepServer cfg l' _).servers l = _
      rw [stepServer_servers, NetworkAct.loopAct]
      split <;> rfl

/-- クライアント `k` に起こること。 -/
theorem clients_next (cfg : NetworkConfig κ ℓ) (s : Network κ ℓ) (a : NetworkAct κ ℓ) (k : κ) :
    (next cfg s a).clients k =
      match a.callAct k with
      | none => s.clients k
      | some b => b.next (cfg.clients k) (s.clients k) := by
  cases a with
  | client k' a =>
      show (s.stepClient cfg k' _).clients k = _
      rw [stepClient_clients, NetworkAct.callAct]
      split <;> rfl
  | recv k' g bytes actual l' n =>
      show (s.stepClient cfg k' _).clients k = _
      rw [stepClient_clients, NetworkAct.callAct]
      split <;> rfl
  | accept l' k g recvRefused => rfl
  | receive l' n sendRefused recvRefused bytes => rfl
  | server l' a => rfl

omit [DecidableEq κ] in
theorem loop_enabled {a : NetworkAct κ ℓ} (h : s.enabled cfg a) {l : ℓ} {b : Server.ConnectionIoLoop.Act}
    (hact : a.loopAct l = some b) : (s.servers l).aborted = false ∧ (s.servers l).enabled b := by
  cases a with
  | client k a => cases hact
  | recv k g bytes actual l' n => cases hact
  | accept l' k g recvRefused =>
      rw [NetworkAct.loopAct] at hact
      split at hact
      next hl => subst hl; cases hact; exact h.1
      next => cases hact
  | receive l' n sendRefused recvRefused bytes =>
      rw [NetworkAct.loopAct] at hact
      split at hact
      next hl => subst hl; cases hact; exact h.1
      next => cases hact
  | server l' a =>
      rw [NetworkAct.loopAct] at hact
      split at hact
      next hl => subst hl; cases hact; exact h.1
      next => cases hact

omit [DecidableEq ℓ] in
theorem call_enabled {a : NetworkAct κ ℓ} (h : s.enabled cfg a) (hfresh : s.FreshDescriptors a) {k : κ}
    {b : Client.FailoverAction} (hact : a.callAct k = some b) :
    b.enabled (cfg.clients k) (s.clients k) ∧ Client.FreshCall (s.clients k) b := by
  cases a with
  | client k' a =>
      rw [NetworkAct.callAct] at hact
      split at hact
      next hk =>
        subst hk
        cases hact
        refine ⟨h.1, ?_⟩
        cases b with
        | call a => exact hfresh
        | resolve f => trivial
        | finish f offset r => trivial
      next => cases hact
  | recv k' g bytes actual l' n =>
      rw [NetworkAct.callAct] at hact
      split at hact
      next hk => subst hk; cases hact; exact ⟨h.1, trivial⟩
      next => cases hact
  | accept l' k g recvRefused => cases hact
  | receive l' n sendRefused recvRefused bytes => cases hact
  | server l' a => cases hact

def serverSimulation (cfg : NetworkConfig κ ℓ) (l : ℓ) :
    Machine.Simulation (network cfg) FreshDescriptors (Server.ConnectionIoLoop.connectionIoLoop (cfg.servers l))
      (fun _ _ => True) where
  view s := s.servers l
  act _ a := a.loopAct l
  init := by rintro s ⟨rfl⟩; rfl
  silent s a _ _ _ hact := by
    show (next cfg s a).servers l = _
    rw [servers_next, hact]
  step s a b _ henabled _ hact := by
    refine ⟨loop_enabled henabled hact, trivial, ?_⟩
    show (next cfg s a).servers l = _
    rw [servers_next, hact]
    rfl

def clientSimulation (cfg : NetworkConfig κ ℓ) (k : κ) :
    Machine.Simulation (network cfg) FreshDescriptors (Client.failover (cfg.clients k)) Client.FreshCall where
  view s := s.clients k
  act _ a := a.callAct k
  init := by rintro s ⟨rfl⟩; rfl
  silent s a _ _ _ hact := by
    show (next cfg s a).clients k = _
    rw [clients_next, hact]
  step s a b _ henabled hfresh hact := by
    obtain ⟨hb, hb'⟩ := call_enabled henabled hfresh hact
    refine ⟨hb, hb', ?_⟩
    show (next cfg s a).clients k = _
    rw [clients_next, hact]
    rfl

variable (h : (network cfg).Reach FreshDescriptors s)

include h in
theorem reach_server (l : ℓ) : (Server.ConnectionIoLoop.connectionIoLoop (cfg.servers l)).Reachable (s.servers l) :=
  (serverSimulation cfg l).reach h

include h in
theorem reach_failover (k : κ) : (Client.failover (cfg.clients k)).Reachable (s.clients k) :=
  ((clientSimulation cfg k).reach h).reachable

include h in
theorem reach_client (k : κ) :
    (Client.client (cfg.clients k).config).Reach Client.FreshDescriptor (s.clients k).client :=
  (Client.freshSimulation (cfg.clients k)).reach ((clientSimulation cfg k).reach h)

/-! ## 接続の両端の対応 -/

/-- 接続 `p` は、サーバーのどの実体ともつながっていない。 -/
def Unpaired (s : Network κ ℓ) (p : κ × Client.ConnId) : Prop := ∀ l n, s.peer l n ≠ some p

/-- クライアントの接続 `p` が受け取ったのは、`received` である。 -/
def ReadsFrom (cfg : NetworkConfig κ ℓ) (s : Network κ ℓ) (p : κ × Client.ConnId) (received : Bytes) : Prop :=
  Client.Reads (cfg.clients p.1).config (s.clients p.1).client p.2 received

/-- 実体の相手は一つの接続であり、その接続の相手はその実体だけである。サーバーは相手の書いたものの先頭から、クライアントは相手の
送ったものの先頭から、順に受け取る。 -/
structure Linked (cfg : NetworkConfig κ ℓ) (s : Network κ ℓ) : Prop where
  peer_lt : ∀ l n p, s.peer l n = some p → n < (s.servers l).created
  peer_accepted : ∀ l n p, s.peer l n = some p → p ∈ s.accepted
  peer_unique : ∀ l n l' n' p, s.peer l n = some p → s.peer l' n' = some p → l = l' ∧ n = n'
  accepted_lt : ∀ p ∈ s.accepted, p.2 < (s.clients p.1).client.nextConn
  delivered_le : ∀ p, s.delivered p ≤ (s.written p).length
  unpaired : ∀ p, s.Unpaired p → s.delivered p = 0 ∧ s.returned p = 0 ∧ s.ReadsFrom cfg p []
  fed : ∀ l n p, s.peer l n = some p →
    ∃ used, Server.ServerConnection.Fed (cfg.servers l) ((s.written p).take (s.delivered p)) used ((s.servers l).objects n)
  reads : ∀ l n p, s.peer l n = some p →
    s.returned p ≤ (s.answered l n).length ∧ s.ReadsFrom cfg p ((s.answered l n).take (s.returned p))

theorem take_of_isPrefix {l l' : Bytes} {n : Nat} (h : l <+: l') (hn : n ≤ l.length) : l'.take n = l.take n := by
  obtain ⟨t, rfl⟩ := h
  exact List.take_append_of_le_length hn

/-- 届いたものの先を、もう一つ受け取る。 -/
theorem take_add_of_isPrefix {l bytes : Bytes} {n : Nat} (h : bytes.isPrefixOf (l.drop n) = true) :
    l.take (n + bytes.length) = l.take n ++ bytes ∧ (n ≤ l.length → n + bytes.length ≤ l.length) := by
  obtain ⟨t, ht⟩ := List.isPrefixOf_iff_prefix.mp h
  refine ⟨?_, fun hn => ?_⟩
  · rw [List.take_add, ← ht, List.take_left]
  · have hlen := congrArg List.length ht
    rw [List.length_append, List.length_drop] at hlen
    omega

omit [DecidableEq κ] [DecidableEq ℓ] in
theorem linked_initial (cfg : NetworkConfig κ ℓ) : Linked cfg (initial cfg) where
  peer_lt l n p hp := by cases hp
  peer_accepted l n p hp := by cases hp
  peer_unique l n l' n' p hp := by cases hp
  accepted_lt p hp := absurd hp List.not_mem_nil
  delivered_le p := Nat.zero_le _
  unpaired p _ := ⟨rfl, rfl, [], .nil, rfl⟩
  fed l n p hp := by cases hp
  reads l n p hp := by cases hp

/-! ### クライアントの動作 -/

omit [DecidableEq ℓ] in
/-- クライアントの動作で、書いたものは増えるだけである。 -/
theorem written_prefix_stepClient (cfg : NetworkConfig κ ℓ) (s : Network κ ℓ) (k : κ) (a : Client.FailoverAction)
    (p : κ × Client.ConnId) : s.written p <+: (s.stepClient cfg k a).written p := by
  rw [written, written, stepClient_clients]
  split
  next hk =>
    subst hk
    refine List.IsPrefix.map Prod.snd ?_
    cases a with
    | resolve f => exact Client.FailoverState.resolve_client ▸ List.prefix_refl _
    | call a => exact Client.sent_prefix_next _ _ a p.2
    | finish f offset r => exact (Client.FailoverState.finish_client offset r) ▸ List.prefix_refl _
  next => exact List.prefix_refl _

omit [DecidableEq ℓ] in
theorem nextConn_stepClient (cfg : NetworkConfig κ ℓ) (s : Network κ ℓ) (k : κ) (a : Client.FailoverAction) (k' : κ) :
    (s.clients k').client.nextConn ≤ ((s.stepClient cfg k a).clients k').client.nextConn := by
  rw [stepClient_clients]
  split
  next hk =>
    subst hk
    cases a with
    | resolve f => exact Client.FailoverState.resolve_client ▸ Nat.le_refl _
    | call a => exact Client.nextConn_le_next _ _ a
    | finish f offset r => exact (Client.FailoverState.finish_client offset r) ▸ Nat.le_refl _
  next => exact Nat.le_refl _

/-- クライアントの動作で、接続 `p` の受信スレッドに届くバイト。 -/
def arrivesAt (k : κ) (p : κ × Client.ConnId) : Client.FailoverAction → Bytes
  | .call a => if k = p.1 then a.arrives p.2 else []
  | _ => []

omit [DecidableEq ℓ] in
theorem readsFrom_stepClient {k : κ} {a : Client.FailoverAction} {p : κ × Client.ConnId} {received : Bytes}
    (h : s.ReadsFrom cfg p received) (ha : a.enabled (cfg.clients k) (s.clients k))
    (hfresh : (s.clients p.1).client.nextConn ≤ p.2 → received = []) :
    (s.stepClient cfg k a).ReadsFrom cfg p (received ++ arrivesAt k p a) := by
  have hkeep : ∀ {fs : Client.FailoverState}, fs.client = (s.clients p.1).client →
      Client.Reads (cfg.clients p.1).config fs.client p.2 (received ++ []) := by
    intro fs hfs
    rw [hfs, List.append_nil]
    exact h
  rw [ReadsFrom, stepClient_clients]
  split
  next hk =>
    subst hk
    cases a with
    | resolve f => exact hkeep Client.FailoverState.resolve_client
    | call a =>
        rw [arrivesAt, if_pos rfl]
        exact Client.Reads.step h ha.1 hfresh
    | finish f offset r => exact hkeep (Client.FailoverState.finish_client offset r)
  next hk =>
    cases a with
    | call a =>
        rw [arrivesAt, if_neg hk]
        exact hkeep rfl
    | resolve f => exact hkeep rfl
    | finish f offset r => exact hkeep rfl

theorem arrivesAt_of_not_receives {a : Client.FailoverAction} (h : receives a = false) (k : κ) (p : κ × Client.ConnId) :
    arrivesAt k p a = [] := by
  cases a with
  | resolve f => rfl
  | finish f offset r => rfl
  | call a =>
      rw [arrivesAt]
      split
      next =>
        cases a with
        | recv g bytes actual => cases h
        | _ => rfl
      next => rfl

namespace Linked

omit [DecidableEq κ] [DecidableEq ℓ] in
/-- つながっている接続は、もう作られている。 -/
theorem not_fresh (h : Linked cfg s) {l : ℓ} {n : Nat} {p : κ × Client.ConnId} (hp : s.peer l n = some p) :
    ¬ (s.clients p.1).client.nextConn ≤ p.2 := Nat.not_le.mpr (h.accepted_lt p (h.peer_accepted l n p hp))

omit [DecidableEq ℓ] in
/-- クライアントの動作。`returned` は、受け取ったバイト数を動作の後のものに直したものである。 -/
theorem clientStep (h : Linked cfg s) {k : κ} {a : Client.FailoverAction} (ha : a.enabled (cfg.clients k) (s.clients k))
    {returned : κ × Client.ConnId → Nat} (hunpaired : ∀ p, s.Unpaired p → returned p = 0 ∧ arrivesAt k p a = [])
    (hpaired : ∀ l n p, s.peer l n = some p → returned p ≤ (s.answered l n).length ∧
      (s.answered l n).take (returned p) = (s.answered l n).take (s.returned p) ++ arrivesAt k p a) :
    Linked cfg { s.stepClient cfg k a with returned := returned } := by
  have hwritten := written_prefix_stepClient cfg s k a
  refine ⟨h.peer_lt, h.peer_accepted, h.peer_unique, ?_, ?_, ?_, ?_, ?_⟩
  · exact fun p hp => (h.accepted_lt p hp).trans_le (nextConn_stepClient cfg s k a p.1)
  · exact fun p => (h.delivered_le p).trans (hwritten p).length_le
  · intro p hp
    obtain ⟨hdelivered, -, hreads⟩ := h.unpaired p hp
    obtain ⟨hreturned, hquiet⟩ := hunpaired p hp
    have hnext := readsFrom_stepClient hreads ha fun _ => rfl
    rw [hquiet] at hnext
    exact ⟨hdelivered, hreturned, hnext⟩
  · intro l n p hp
    show ∃ used, Server.ServerConnection.Fed _ (((s.stepClient cfg k a).written p).take (s.delivered p)) used _
    rw [take_of_isPrefix (hwritten p) (h.delivered_le p)]
    exact h.fed l n p hp
  · intro l n p hp
    obtain ⟨hle, htake⟩ := hpaired l n p hp
    have hnext := readsFrom_stepClient (h.reads l n p hp).2 ha fun hfresh => absurd hfresh (h.not_fresh hp)
    rw [← htake] at hnext
    exact ⟨hle, hnext⟩

omit [DecidableEq ℓ] in
/-- 受信のほかの、クライアントの動作。 -/
theorem client (h : Linked cfg s) {k : κ} {a : Client.FailoverAction} (ha : a.enabled (cfg.clients k) (s.clients k))
    (hquiet : receives a = false) : Linked cfg (s.stepClient cfg k a) := by
  have harrives := arrivesAt_of_not_receives hquiet k
  refine h.clientStep ha (fun p hp => ⟨(h.unpaired p hp).2.1, harrives p⟩) fun l n p hp => ⟨(h.reads l n p hp).1, ?_⟩
  rw [harrives, List.append_nil]

omit [DecidableEq ℓ] in
/-- クライアントの接続 `g` が、相手の送ったものの続きを受け取る。 -/
theorem recv (h : Linked cfg s) {k : κ} {g : Client.ConnId} {bytes : Bytes} {l : ℓ} {n : Nat}
    (ha : (Client.FailoverAction.call (.recv g bytes g)).enabled (cfg.clients k) (s.clients k))
    (hpeer : s.peer l n = some (k, g))
    (hbytes : bytes.isPrefixOf ((s.answered l n).drop (s.returned (k, g))) = true) :
    Linked cfg { s.stepClient cfg k (.call (.recv g bytes g)) with
      returned := update s.returned (k, g) (s.returned (k, g) + bytes.length) } := by
  have harrives : ∀ p, arrivesAt k p (.call (.recv g bytes g)) = if (k, g) = p then bytes else [] := by
    rintro ⟨k', g'⟩
    by_cases hk : k = k' <;> by_cases hg : g = g' <;> simp [arrivesAt, Client.Action.arrives, hk, hg]
  refine h.clientStep ha (fun p hp => ?_) fun l' n' p hp => ?_
  · have hne : p ≠ (k, g) := fun heq => hp l n (heq ▸ hpeer)
    rw [harrives, if_neg (Ne.symm hne), update_of_ne hne]
    exact ⟨(h.unpaired p hp).2.1, rfl⟩
  · obtain ⟨hle, -⟩ := h.reads l' n' p hp
    rw [harrives]
    by_cases heq : p = (k, g)
    · subst heq
      obtain ⟨rfl, rfl⟩ := h.peer_unique l n l' n' (k, g) hpeer hp
      obtain ⟨htake, hlen⟩ := take_add_of_isPrefix hbytes
      rw [update_self, if_pos rfl]
      exact ⟨hlen hle, htake⟩
    · rw [update_of_ne heq, if_neg (Ne.symm heq), List.append_nil]
      exact ⟨hle, rfl⟩

omit [DecidableEq κ] in
/-- サーバーの動作。`delivered` は、届いたバイト数を動作の後のものに直したものである。 -/
theorem server (h : Linked cfg s) {l : ℓ} {a : Server.ConnectionIoLoop.Act}
    (hreach : (Server.ConnectionIoLoop.connectionIoLoop (cfg.servers l)).Reachable (s.servers l))
    (ha : (s.servers l).enabled a) {delivered : κ × Client.ConnId → Nat}
    (hle : ∀ p, delivered p ≤ (s.written p).length) (hunpaired : ∀ p, s.Unpaired p → delivered p = 0)
    (harrives : ∀ l' n p, s.peer l' n = some p →
      (s.written p).take (delivered p) = (s.written p).take (s.delivered p) ++ if l = l' then a.arrives n else []) :
    Linked cfg { s.stepServer cfg l a with delivered := delivered } := by
  have hinv := Server.ConnectionIoLoop.reachable_loopInv hreach
  have hsends := Server.ConnectionIoLoop.reachable_sends hreach
  refine ⟨?_, h.peer_accepted, h.peer_unique, h.accepted_lt, hle, ?_, ?_, ?_⟩
  · intro l' n p hp
    show n < ((s.stepServer cfg l a).servers l').created
    rw [stepServer_servers]
    split
    next hl => subst hl; exact (h.peer_lt l n p hp).trans_le (hinv.advance_next ha).created
    next => exact h.peer_lt l' n p hp
  · exact fun p hp => ⟨hunpaired p hp, (h.unpaired p hp).2⟩
  · intro l' n p hp
    show ∃ used, Server.ServerConnection.Fed _ ((s.written p).take (delivered p)) used
      (((s.stepServer cfg l a).servers l').objects n)
    rw [stepServer_servers, harrives l' n p hp]
    split
    next hl => subst hl; exact Server.ConnectionIoLoop.fed_next hinv ha (h.peer_lt l n p hp) (h.fed l n p hp)
    next => rw [List.append_nil]; exact h.fed l' n p hp
  · intro l' n p hp
    obtain ⟨hlen, hreads⟩ := h.reads l' n p hp
    show s.returned p ≤ ((s.stepServer cfg l a).answered l' n).length ∧
      ReadsFrom cfg s p (((s.stepServer cfg l a).answered l' n).take (s.returned p))
    have hprefix : s.answered l' n <+: (s.stepServer cfg l a).answered l' n := by
      rw [answered, answered, stepServer_servers]
      split
      next hl =>
        subst hl
        have hn := h.peer_lt l n p hp
        exact (Server.ConnectionIoLoop.sends_next hinv ha hn (hsends n hn)).1
      next => exact List.prefix_refl _
    rw [take_of_isPrefix hprefix hlen]
    exact ⟨hlen.trans hprefix.length_le, hreads⟩

omit [DecidableEq κ] in
theorem server_same (h : Linked cfg s) {l : ℓ} {a : Server.ConnectionIoLoop.Act}
    (hreach : (Server.ConnectionIoLoop.connectionIoLoop (cfg.servers l)).Reachable (s.servers l))
    (ha : (s.servers l).enabled a) (harrives : ∀ n p, s.peer l n = some p → a.arrives n = []) :
    Linked cfg (s.stepServer cfg l a) := by
  refine h.server hreach ha h.delivered_le (fun p hp => (h.unpaired p hp).1) ?_
  intro l' n p hp
  split
  next hl => subst hl; rw [harrives n p hp, List.append_nil]
  next => rw [List.append_nil]

omit [DecidableEq κ] [DecidableEq ℓ] in
/-- 実体を作らない受け付け。 -/
theorem refuse (h : Linked cfg s) {p : κ × Client.ConnId} (hp : p.2 < (s.clients p.1).client.nextConn) :
    Linked cfg { s with accepted := p :: s.accepted } where
  peer_lt := h.peer_lt
  peer_accepted l n q hq := List.mem_cons_of_mem _ (h.peer_accepted l n q hq)
  peer_unique := h.peer_unique
  accepted_lt q hq := by
    rcases List.mem_cons.mp hq with rfl | hq
    · exact hp
    · exact h.accepted_lt q hq
  delivered_le := h.delivered_le
  unpaired := h.unpaired
  fed := h.fed
  reads := h.reads

omit [DecidableEq κ] in
/-- 新しい実体 `n` を、まだつながっていない接続 `p` とつなぐ。 -/
theorem pair (h : Linked cfg s) {p : κ × Client.ConnId} {l : ℓ} {n : Nat} (hp : p.2 < (s.clients p.1).client.nextConn)
    (hnew : p ∉ s.accepted) (hn : n < (s.servers l).created) (hfree : s.peer l n = none)
    (hfed : ∃ used, Server.ServerConnection.Fed (cfg.servers l) [] used ((s.servers l).objects n)) :
    Linked cfg { s with accepted := p :: s.accepted, peer := update s.peer l (update (s.peer l) n (some p)) } := by
  have hunpaired : s.Unpaired p := fun l' n' hq => hnew (h.peer_accepted l' n' p hq)
  obtain ⟨hdelivered, hreturned, hreads⟩ := h.unpaired p hunpaired
  have hcases : ∀ {l' n' q}, update s.peer l (update (s.peer l) n (some p)) l' n' = some q →
      l' = l ∧ n' = n ∧ q = p ∨ s.peer l' n' = some q := by
    intro l' n' q hq
    rw [update_apply] at hq
    split at hq
    next hl =>
      subst hl
      rw [update_apply] at hq
      split at hq
      next hn' => exact .inl ⟨rfl, hn', (Option.some.inj hq).symm⟩
      next => exact .inr hq
    next => exact .inr hq
  refine ⟨?_, ?_, ?_, (h.refuse hp).accepted_lt, h.delivered_le, ?_, ?_, ?_⟩
  · intro l' n' q hq
    rcases hcases hq with ⟨rfl, rfl, -⟩ | hq
    · exact hn
    · exact h.peer_lt l' n' q hq
  · intro l' n' q hq
    rcases hcases hq with ⟨-, -, rfl⟩ | hq
    · exact List.mem_cons_self
    · exact List.mem_cons_of_mem _ (h.peer_accepted l' n' q hq)
  · intro l₁ n₁ l₂ n₂ q h₁ h₂
    rcases hcases h₁ with ⟨rfl, rfl, rfl⟩ | hold₁ <;> rcases hcases h₂ with ⟨rfl, rfl, heq⟩ | hold₂
    · exact ⟨rfl, rfl⟩
    · exact absurd hold₂ (hunpaired l₂ n₂)
    · exact absurd (heq ▸ hold₁) (hunpaired l₁ n₁)
    · exact h.peer_unique l₁ n₁ l₂ n₂ q hold₁ hold₂
  · intro q hq
    refine h.unpaired q fun l' n' hold => ?_
    refine hq l' n' ?_
    show update s.peer l (update (s.peer l) n (some p)) l' n' = some q
    by_cases hl : l' = l
    · subst hl
      have hne : n' ≠ n := by
        rintro rfl
        cases hfree.symm.trans hold
      rw [update_self, update_of_ne hne]
      exact hold
    · rw [update_of_ne hl]
      exact hold
  · intro l' n' q hq
    show ∃ used, Server.ServerConnection.Fed _ ((s.written q).take (s.delivered q)) used _
    rcases hcases hq with ⟨rfl, rfl, rfl⟩ | hq
    · rw [hdelivered]
      exact hfed
    · exact h.fed l' n' q hq
  · intro l' n' q hq
    show s.returned q ≤ (s.answered l' n').length ∧ s.ReadsFrom cfg q ((s.answered l' n').take (s.returned q))
    rcases hcases hq with ⟨-, -, rfl⟩ | hq
    · rw [hreturned]
      exact ⟨Nat.zero_le _, hreads⟩
    · exact h.reads l' n' q hq

theorem accept (h : Linked cfg s) {l : ℓ} {k : κ} {g : Client.ConnId} {recvRefused : Bool}
    (hreach : (Server.ConnectionIoLoop.connectionIoLoop (cfg.servers l)).Reachable (s.servers l))
    (ha : (s.servers l).enabled (.startConnection recvRefused)) (hg : g < (s.clients k).client.nextConn)
    (hnew : (k, g) ∉ s.accepted) : Linked cfg (next cfg s (.accept l k g recvRefused)) := by
  have hstep : Linked cfg (s.stepServer cfg l (.startConnection recvRefused)) := h.server_same hreach ha fun n p hp => rfl
  have hself : (s.stepServer cfg l (.startConnection recvRefused)).servers l =
      (s.servers l).next (cfg.servers l) (.startConnection recvRefused) := update_self _ _ _
  have hfree : s.peer l (s.servers l).created = none := by
    cases hpeer : s.peer l (s.servers l).created with
    | none => rfl
    | some p => exact absurd (h.peer_lt l _ p hpeer) (Nat.lt_irrefl _)
  dsimp only [next]
  rcases Server.ConnectionIoLoop.created_cases (cfg.servers l) (.startConnection recvRefused) with
    hsame | ⟨-, hcreated, id, hquiet⟩
  · rw [if_pos (by rw [hself]; exact hsame)]
    exact hstep.refuse hg
  · rw [if_neg (by rw [hself, hcreated]; omega)]
    refine hstep.pair hg hnew (by rw [hself, hcreated]; omega) hfree ?_
    rw [hself]
    exact ⟨[], (Server.ConnectionIoLoop.fed_create _ id).quiet hquiet (Nat.zero_le _)⟩

/-- 相手の書いたものの続きが、サーバーの実体 `n` に届く。 -/
theorem receive (h : Linked cfg s) {l : ℓ} {n : Nat} {sendRefused recvRefused : Bool} {bytes : Bytes}
    (hreach : (Server.ConnectionIoLoop.connectionIoLoop (cfg.servers l)).Reachable (s.servers l))
    (ha : (s.servers l).enabled (.received n sendRefused recvRefused bytes))
    (hbytes : s.arrivable bytes (s.peer l n) = true) :
    Linked cfg (next cfg s (.receive l n sendRefused recvRefused bytes)) := by
  rw [next]
  cases hpeer : s.peer l n with
  | none => rw [hpeer] at hbytes; cases hbytes
  | some p =>
      rw [hpeer, arrivable] at hbytes
      obtain ⟨htake, hlen⟩ := take_add_of_isPrefix hbytes
      refine h.server hreach ha ?_ ?_ ?_
      · intro q
        rw [deliver, update_apply]
        split
        next hq => subst hq; exact hlen (h.delivered_le q)
        next => exact h.delivered_le q
      · intro q hq
        have hne : q ≠ p := fun heq => hq l n (heq ▸ hpeer)
        rw [deliver, update_of_ne hne]
        exact (h.unpaired q hq).1
      · intro l' n' q hq
        rw [deliver]
        by_cases heq : q = p
        · subst heq
          obtain ⟨rfl, rfl⟩ := h.peer_unique l n l' n' q hpeer hq
          rw [update_self, htake, if_pos rfl]
          exact congrArg _ (if_pos rfl).symm
        · rw [update_of_ne heq]
          split
          next hl =>
            subst hl
            have hne : n ≠ n' := by
              rintro rfl
              exact heq (Option.some.inj (hq.symm.trans hpeer))
            rw [show (Server.ConnectionIoLoop.Act.received n sendRefused recvRefused bytes).arrives n' = [] from if_neg hne,
              List.append_nil]
          next => rw [List.append_nil]

end Linked

theorem arrives_of_not_receiver {a : Server.ConnectionIoLoop.Act} {n : Nat} (h : n ∉ receiver a) : a.arrives n = [] := by
  cases a with
  | received m sendRefused recvRefused bytes => exact if_neg fun (heq : m = n) => h (congrArg some heq)
  | _ => rfl

/-- 到達可能なすべての状態で、接続の両端は対応している。 -/
theorem reach_linked (h : (network cfg).Reach FreshDescriptors s) : Linked cfg s := by
  refine h.invariant (I := Linked cfg) ?_ ?_
  · rintro s ⟨rfl⟩
    exact linked_initial cfg
  · intro s a hreach ih ha hfresh
    show Linked cfg (next cfg s a)
    cases a with
    | client k a => exact ih.client ha.1 ha.2
    | recv k g bytes actual l n =>
        -- 受信スレッドの番号は、その接続の番号である
        obtain ⟨hcall, hpeer, hbytes⟩ := ha
        obtain ⟨hpc, hfds, -⟩ := hcall.1
        have hlive : (s.clients k).client.sockets.reader g = .live := congrArg Client.ReaderPc.stage hpc
        obtain rfl := (Client.reach_sound (reach_client hreach k)).copies.reader_own g hlive actual hfds
        exact ih.recv hcall hpeer hbytes
    | accept l k g recvRefused => exact ih.accept (reach_server hreach l) ha.1.2 ha.2.1 ha.2.2
    | receive l n sendRefused recvRefused bytes => exact ih.receive (reach_server hreach l) ha.1.2 ha.2
    | server l a =>
        refine ih.server_same (reach_server hreach l) ha.1.2 fun n p hp => arrives_of_not_receiver fun hn => ?_
        cases (ha.2 n hn).symm.trans hp

end Network

end Xrpc.Deployment
