import Xrpc.Client.Lemmas.Written
import Xrpc.Deployment.Lemmas.Links
import Xrpc.Protocol.Lemmas.Peers

/-!
# サーバーに届く要求
-/

namespace Xrpc.Client
open Xrpc.Lib Xrpc.Protocol

/-- 呼び出しのフレームは、同じ符号化を使う相手でも、その呼び出しの要求になるか、復号できない。 -/
theorem requestFrame_blocks {cfg : Config} {p : Platform} (hpb : cfg.env.platform.protobuf.Lawful)
    (hsame : p.protobuf = cfg.env.platform.protobuf) (limits : ProtocolLimits) {calls : List CallId}
    (hne : ∀ c ∈ calls, 0 < (cfg.requestFrame c).length) :
    (requestDecoder p limits).Blocks cfg.requestFrame (fun c => (cfg.calls c).request) calls := by
  intro c hc x
  cases hencoded : cfg.encoded c with
  | error status =>
      have hempty : cfg.requestFrame c = [] := by rw [Config.requestFrame, hencoded]
      have hpos := hne c hc
      rw [hempty] at hpos
      exact absurd hpos (Nat.lt_irrefl 0)
  | ok frame =>
      have hframe : cfg.requestFrame c = frame := by rw [Config.requestFrame, hencoded]
      rw [hframe]
      exact requestDecoder_peer hpb hsame hencoded limits x

end Xrpc.Client

namespace Xrpc.Deployment.Network
open Xrpc.Lib Xrpc.Protocol

variable {κ ℓ : Type} [DecidableEq κ] [DecidableEq ℓ] {cfg : NetworkConfig κ ℓ} {s : Network κ ℓ}

/-- クライアント `k` とサーバー `l` は、同じ符号化を使う。 -/
structure SharedProtobuf (cfg : NetworkConfig κ ℓ) (k : κ) (l : ℓ) : Prop where
  lawful : (cfg.clients k).env.platform.protobuf.Lawful
  same : (cfg.servers l).platform.protobuf = (cfg.clients k).env.platform.protobuf

/-- クライアント `k` の呼び出しの要求。 -/
def requestOf (cfg : NetworkConfig κ ℓ) (k : κ) (c : Client.CallId) : RequestEnvelope :=
  ((cfg.clients k).config.calls c).request

/-- 実体が復号したのは、相手の接続に書き終えた呼び出しの先頭からの要求であり、そのフレームは全部が届いている。 -/
theorem reach_requests (h : (network cfg).Reach FreshDescriptors s) {l : ℓ} {n : Nat} {k : κ} {g : Client.ConnId}
    (hpeer : s.peer l n = some (k, g)) (hshared : SharedProtobuf cfg k l) {calls : List Client.CallId} {part : Bytes}
    (hwritten : Client.WrittenFrames (cfg.clients k).config (s.clients k).client g calls part) :
    ∃ m, ((s.servers l).objects n).decoded = (calls.take m).map (requestOf cfg k) ∧
      (calls.take m).flatMap (cfg.clients k).config.requestFrame <+: (s.written (k, g)).take (s.delivered (k, g)) := by
  have hreach := reach_client h k
  have hnonempty : ∀ c ∈ calls, 0 < ((cfg.clients k).config.requestFrame c).length := fun c hc =>
    (Client.bytesOf_of_wrote hreach ((hwritten.mem c).mp hc)).2
  obtain ⟨used, hfed⟩ := (reach_linked h).fed l n (k, g) hpeer
  have hused : used <+: calls.flatMap (cfg.clients k).config.requestFrame ++ part := by
    rw [← hwritten.sent]
    exact hfed.arrived.trans (List.take_prefix _ _)
  have hblocks := Client.requestFrame_blocks hshared.lawful hshared.same (cfg.servers l).protocolLimits hnonempty
  obtain ⟨m, hdecoded, hwhole⟩ := hblocks.parse_part (by
    intro hne
    obtain ⟨c, hprefix, hlt⟩ := hwritten.part_lt hne
    refine ⟨c, Client.requestFrame_blocks hshared.lawful hshared.same _ fun c' hc' => ?_, hprefix, hlt⟩
    obtain rfl := List.mem_singleton.mp hc'
    omega) hused
  exact ⟨m, hfed.decoded.trans hdecoded, hwhole.trans hfed.arrived⟩

/-- 復号した要求は、相手の接続に書き終えた、一つの呼び出しの要求である。 -/
theorem decoded_origin (h : (network cfg).Reach FreshDescriptors s) {l : ℓ} {n : Nat} {k : κ} {g : Client.ConnId}
    (hpeer : s.peer l n = some (k, g)) (hshared : SharedProtobuf cfg k l) {calls : List Client.CallId} {part : Bytes}
    (hwritten : Client.WrittenFrames (cfg.clients k).config (s.clients k).client g calls part) {i : Nat}
    {request : RequestEnvelope} (hget : ((s.servers l).objects n).decoded[i]? = some request) :
    ∃ c, calls[i]? = some c ∧ (s.clients k).client.wrote c = some g ∧ requestOf cfg k c = request := by
  obtain ⟨m, hdecoded, -⟩ := reach_requests h hpeer hshared hwritten
  rw [hdecoded, List.getElem?_map, Option.map_eq_some_iff] at hget
  obtain ⟨c, hc, hrequest⟩ := hget
  rw [List.getElem?_take] at hc
  split at hc
  next => exact ⟨c, hc, (hwritten.mem c).mp (List.mem_of_getElem? hc), hrequest⟩
  next => cases hc

/-- 始まった呼び出しのうち、番号の等しいものは、同じ RPC の試みである。 -/
def DistinctIds (cfg : NetworkConfig κ ℓ) (s : Network κ ℓ) (k : κ) : Prop :=
  ∀ c c', (s.clients k).client.pc c ≠ .idle → (s.clients k).client.pc c' ≠ .idle →
    (requestOf cfg k c).requestId = (requestOf cfg k c').requestId → c.rpc = c'.rpc

/-- 書き終えた呼び出しは、送ったかもしれない位置にある。 -/
theorem maySend_of_wrote (h : (network cfg).Reach FreshDescriptors s) {k : κ} {c : Client.CallId} {g : Client.ConnId}
    (hw : (s.clients k).client.wrote c = some g) : ((s.clients k).client.pc c).maySend := by
  have hreach := reach_client h k
  obtain ⟨hbytes, hpos⟩ := Client.bytesOf_of_wrote hreach hw
  rw [← hbytes, Client.State.bytesOf, List.length_map] at hpos
  obtain ⟨⟨c', b⟩, hmem⟩ := List.exists_mem_of_length_pos hpos
  obtain ⟨hsent, heq⟩ := List.mem_filter.mp hmem
  obtain rfl : c' = c := of_decide_eq_true heq
  exact Client.reachable_maySend hreach.reachable g c' b hsent

theorem started_of_wrote (h : (network cfg).Reach FreshDescriptors s) {k : κ} {c : Client.CallId} {g : Client.ConnId}
    (hw : (s.clients k).client.wrote c = some g) : (s.clients k).client.pc c ≠ .idle := by
  intro hidle
  have hmay := maySend_of_wrote h hw
  rw [hidle] at hmay
  cases hmay

/-- 一つの RPC の試みのうち、書き終えるのは高々一つである。 -/
theorem wrote_unique (h : (network cfg).Reach FreshDescriptors s) {k : κ} {c c' : Client.CallId} {g g' : Client.ConnId}
    (hw : (s.clients k).client.wrote c = some g) (hw' : (s.clients k).client.wrote c' = some g') (hrpc : c.rpc = c'.rpc) :
    c = c' := by
  have hlast : ∀ {c : Client.CallId} {g}, (s.clients k).client.wrote c = some g →
      c.attempt + 1 = ((s.clients k).attempted c.rpc).length := by
    intro c g hw
    exact (Client.reachable_attempts (reach_failover h k) c.rpc).last_of_maySend (maySend_of_wrote h hw)
  have hattempt := hlast hw
  rw [hrpc] at hattempt
  have hsame := hattempt.trans (hlast hw').symm
  cases c
  cases c'
  cases hrpc
  cases Nat.succ.inj hsame
  rfl

end Xrpc.Deployment.Network
