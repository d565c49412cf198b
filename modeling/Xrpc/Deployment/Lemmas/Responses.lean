import Xrpc.Deployment.Lemmas.Requests

/-!
# クライアントに届く応答
-/

namespace Xrpc.Deployment.Network
open Xrpc.Lib Xrpc.Protocol

variable {κ ℓ : Type} [DecidableEq κ] [DecidableEq ℓ] {cfg : NetworkConfig κ ℓ} {s : Network κ ℓ}

/-- 符号化した応答のフレームは、相手でも同じ応答になるか、復号できない。 -/
theorem responseFrame_blocks {cfg : Server.ServerConnectionConfig} {p : Platform} (hpb : cfg.platform.protobuf.Lawful)
    (hsame : p.protobuf = cfg.platform.protobuf) (limits : ProtocolLimits) {responses : List Server.Response}
    (h : ∀ response ∈ responses, response.Dispatched cfg ∨ response.Refused cfg) :
    (Client.responseDecoder p limits).Blocks Server.Response.frame (·.envelope.received) responses := by
  intro response hmem x
  rcases h response hmem with hanswer | hanswer
  · exact responseDecoder_peer hpb hsame hanswer.2 limits x
  · exact responseDecoder_peer hpb hsame hanswer.2 limits x

/-- 応答の番号は、要求の番号である。 -/
theorem answer_requestId {cfg : Server.ServerConnectionConfig} {response : Server.Response}
    (h : response.Dispatched cfg ∨ response.Refused cfg) :
    response.envelope.received.requestId = response.request.envelope.requestId := by
  show response.envelope.requestId = _
  rcases h with ⟨⟨invocation, henvelope⟩, -⟩ | ⟨⟨message, henvelope⟩, -⟩
  · rw [henvelope, Server.ServiceRegistry.dispatch_requestId]
  · rw [henvelope, Server.ServerConnection.rejection]

/-- サーバー `l` の実体 `n` が書き込みに積んだ応答。 -/
def enqueuedBy (s : Network κ ℓ) (l : ℓ) (n : Nat) : List Server.Response := ((s.servers l).objects n).enqueued

/-- 積んだ応答は、復号した要求への応答である。 -/
theorem enqueued_answers (h : (network cfg).Reach FreshDescriptors s) {l : ℓ} {n : Nat} (hn : n < (s.servers l).created)
    {response : Server.Response} (hmem : response ∈ s.enqueuedBy l n) :
    (response.Dispatched (cfg.servers l) ∨ response.Refused (cfg.servers l)) ∧
      ((s.servers l).objects n).decoded[response.request.index]? = some response.request.envelope := by
  obtain ⟨_, _, hobject⟩ := (Server.ConnectionIoLoop.reachable_loopInv (reach_server h l)).objects n hn
  have hcases := hobject.requests.enqueued response hmem
  refine ⟨hcases.imp And.left And.left, hobject.requests.decoded _ (List.mem_append_left _ ?_)⟩
  exact List.mem_append.mpr (hcases.imp And.right And.right)

/-- 接続が復号したのは、相手の実体が積んだ応答の先頭からのものである。 -/
theorem reach_responses (h : (network cfg).Reach FreshDescriptors s) {l : ℓ} {n : Nat} {k : κ} {g : Client.ConnId}
    (hpeer : s.peer l n = some (k, g)) (hshared : SharedProtobuf cfg k l) :
    ∃ m, (s.clients k).client.decoded g = ((s.enqueuedBy l n).take m).map (·.envelope.received) := by
  have hserver := reach_server h l
  have hn := (reach_linked h).peer_lt l n (k, g) hpeer
  obtain ⟨_, _, hobject⟩ := (Server.ConnectionIoLoop.reachable_loopInv hserver).objects n hn
  obtain ⟨-, consumed, hframes, happend⟩ := (reach_linked h).reads l n (k, g) hpeer
  have hsent : consumed <+: (s.enqueuedBy l n).flatMap Server.Response.frame := by
    rw [List.flatMap_def, show ((s.enqueuedBy l n).map Server.Response.frame).flatten = _ from hobject.requests.accepted.symm]
    calc consumed
      _ <+: (s.answered l n).take (s.returned (k, g)) := happend ▸ List.prefix_append _ _
      _ <+: s.answered l n := List.take_prefix _ _
      _ <+: _ := Server.ConnectionIoLoop.reachable_sends hserver n hn
  have hblocks := responseFrame_blocks (hshared.same ▸ hshared.lawful) hshared.same.symm
    ((cfg.clients k).config.transports ((s.clients k).client.connTransport g)).protocolLimits
    fun response hmem => (enqueued_answers h hn hmem).1
  obtain ⟨m, hdecoded, -⟩ := hblocks.parse hsent
  -- 復号したフレームの並びは、一度に復号したものである
  have hparse := hframes.parse_append []
  have hstop : ((s.clients k).client.responses (cfg.clients k).config g).parse [] = ([], []) :=
    StreamDecoder.parse_stop (by simp [StreamDecoder.nil_more])
  rw [hstop, List.append_nil, List.append_nil] at hparse
  exact ⟨m, (congrArg Prod.fst hparse).symm.trans hdecoded⟩

/-- つながっていない接続からは、何も復号されない。 -/
theorem peer_of_decoded (h : (network cfg).Reach FreshDescriptors s) {k : κ} {g : Client.ConnId}
    (hne : (s.clients k).client.decoded g ≠ []) : ∃ l n, s.peer l n = some (k, g) := by
  by_contra hnone
  have hunpaired : s.Unpaired (k, g) := fun l n hpeer => hnone ⟨l, n, hpeer⟩
  obtain ⟨-, -, consumed, hframes, happend⟩ := (reach_linked h).unpaired (k, g) hunpaired
  obtain ⟨rfl, -⟩ := List.append_eq_nil_iff.mp happend
  exact hne (hframes.nil_iff.mp rfl)

end Xrpc.Deployment.Network
