import Xrpc.Client.Theorems
import Xrpc.Deployment.Lemmas.Responses
import Xrpc.Server.ConnectionTheorems

/-!
# クライアントとサーバーをつないだ系の主定理

クライアントの呼び出しから、サーバーの復号、応答、クライアントへの返却までを通した性質を述べる。クライアントの記述子は、写し
持たれている間は新しいソケットに渡らないとする。
-/

namespace Xrpc.Deployment.Network
open Xrpc.Lib Xrpc.Protocol Function

variable {κ ℓ : Type} [DecidableEq κ] [DecidableEq ℓ] {cfg : NetworkConfig κ ℓ} {s : Network κ ℓ}

/-! ## 要求を一つ往復させる実行 -/

section

open Xrpc.Server

/-- 始められる RPC が一つだけのクライアント。 -/
def echoClient : Client.RpcConfig where
  env := ⟨⟨.little, proto3⟩, fun _ => []⟩
  transports _ := {}
  rpcs f := ⟨echoRequest.envelope, none, if f = 0 then .ok [0] else .error {}, 0⟩

/-- クライアントもサーバーも一つの系。 -/
def echoNetwork : NetworkConfig Unit Unit := ⟨fun _ => echoClient, fun _ => echoServer⟩

/-- 番号の異なる RPC を始められるクライアントの系。 -/
def pairNetwork : NetworkConfig Unit Unit where
  clients _ := { echoClient with rpcs := fun f => ⟨{ echoRequest.envelope with requestId := UInt64.ofNat f }, none, .ok [0], 0⟩ }
  servers _ := echoServer

def clientActs (as : List Client.Action) : List (NetworkAct Unit Unit) := as.map fun a => .client () (.call a)

def serverActs (as : List ConnectionIoLoop.Act) : List (NetworkAct Unit Unit) := as.map fun a => .server () a

def echoFrame : Bytes := echoClient.config.requestFrame ⟨0, 0⟩

def echoAnswer : ResponseEnvelope := ⟨echoRequest.envelope.requestId, {}, echoRequest.envelope.payload⟩

def echoAnswerFrame : Bytes := echoResults.flatMap WorkerResult.responseBytes

/-- 最初の呼び出しがソケットを作るところ。 -/
def startedCall (cfg : NetworkConfig Unit Unit) : Network Unit Unit :=
  next cfg (next cfg (initial cfg) (.client () (.resolve 0))) (.client () (.call (.start ⟨0, 0⟩)))

def openedCall (cfg : NetworkConfig Unit Unit) : Network Unit Unit :=
  next cfg (startedCall cfg) (.client () (.call (.openSocket ⟨0, 0⟩ 3)))

/-- クライアントが要求を書き、サーバーが受け取るまでの動作。 -/
def echoRequests : List (NetworkAct Unit Unit) :=
  clientActs ([.connectOk ⟨0, 0⟩ 3 0, .assignReader ⟨0, 0⟩ 0] ++ Client.writes ⟨0, 0⟩ 3 0 ++ [.decodeMore 0]) ++
    serverActs [.start, .postStartConnection] ++ [.accept () () 0 false, .receive () 0 false false echoFrame]

/-- サーバーが応答を送り、クライアントの呼び出しが返るまでの動作。 -/
def echoReplies : List (NetworkAct Unit Unit) :=
  serverActs ([.submitAccepted 0 [echoRequest], .countAdmitted 0 false 1] ++ postsEcho ++ handlesEcho ++
      [.sendCompleted 0 false echoAnswerFrame.length]) ++
    [.recv () 0 echoAnswerFrame 0 () 0] ++
    clientActs [.complete 0 echoAnswerFrame.length echoAnswer ⟨0, 0⟩,
      .publish (.reader 0) ⟨0, 0⟩ ⟨.response echoAnswer, .reader 0, some 0⟩,
      .resultReady ⟨0, 0⟩ ⟨.response echoAnswer, .reader 0, some 0⟩]

/-- ソケットを作る動作。 -/
def opensSocket : NetworkAct κ ℓ → Bool
  | .client _ (.call (.openSocket _ _)) => true
  | _ => false

omit [DecidableEq κ] [DecidableEq ℓ] in
theorem fresh_of_not_opensSocket {a : NetworkAct κ ℓ} (h : opensSocket a = false) (t : Network κ ℓ) :
    FreshDescriptors t a := by
  cases a with
  | client k a =>
      cases a with
      | call a =>
          cases a with
          | openSocket c fd => cases h
          | _ => trivial
      | _ => trivial
  | _ => trivial

theorem reach_openedCall {cfg : NetworkConfig Unit Unit} (hresolve : (network cfg).enabled (initial cfg) (.client () (.resolve 0)))
    (hstart : (network cfg).enabled (next cfg (initial cfg) (.client () (.resolve 0))) (.client () (.call (.start ⟨0, 0⟩))))
    (hopen : (network cfg).enabled (startedCall cfg) (.client () (.call (.openSocket ⟨0, 0⟩ 3))))
    (hclient : ((startedCall cfg).clients ()).client = Client.State.initial.setPc ⟨0, 0⟩ .ensureConnected) :
    (network cfg).Reach FreshDescriptors (openedCall cfg) := by
  have hstarted := (Machine.Reach.init (M := network cfg) (C := FreshDescriptors) (s := initial cfg) rfl)
    |>.step (a := NetworkAct.client () (.resolve 0)) hresolve (fresh_of_not_opensSocket rfl _)
    |>.step (a := NetworkAct.client () (.call (.start ⟨0, 0⟩))) hstart (fresh_of_not_opensSocket rfl _)
  refine hstarted.step (a := NetworkAct.client () (.call (.openSocket ⟨0, 0⟩ 3))) hopen ?_
  -- 最初のソケットを作るときには、どの番号も写し持たれていない
  show Client.FreshDescriptor ((startedCall cfg).clients ()).client (.openSocket ⟨0, 0⟩ 3)
  rw [hclient]
  refine ⟨fun c => ?_, fun g hg => ?_⟩
  · show (update (fun _ => Client.CallPc.idle) (⟨0, 0⟩ : Client.CallId) .ensureConnected c).heldFd ≠ some 3
    rw [update_apply]
    split
    next => rintro ⟨⟩
    next => rintro ⟨⟩
  · cases hg

/-- ソケットを作った後の動作を続けた実行。 -/
theorem exists_reach_of_opened {cfg : NetworkConfig Unit Unit} (hopened : (network cfg).Reach FreshDescriptors (openedCall cfg))
    (as : List (NetworkAct Unit Unit)) (p : Network Unit Unit → Bool) (hopens : ∀ a ∈ as, opensSocket a = false)
    (h : ((network cfg).exec (openedCall cfg) as).any p = true) :
    ∃ s, (network cfg).Reach FreshDescriptors s ∧ p s = true :=
  Machine.exists_reach_of_exec as p hopened (fun a ha => fresh_of_not_opensSocket (hopens a ha)) h

theorem reach_openedEcho : (network echoNetwork).Reach FreshDescriptors (openedCall echoNetwork) :=
  reach_openedCall (by decide) (by decide) (by decide) rfl

theorem sharedProtobuf_echo : SharedProtobuf echoNetwork () () := ⟨proto3_lawful, rfl⟩

/-- 始まるのは、一つの RPC だけである。 -/
theorem distinctIds_echo {s : Network Unit Unit} (h : (network echoNetwork).Reach FreshDescriptors s) :
    DistinctIds echoNetwork s () := by
  have hzero : ∀ c, (s.clients ()).client.pc c ≠ .idle → c.rpc = 0 := by
    intro c hstarted
    by_contra hne
    have hattempts := Client.reachable_attempts (reach_failover h ()) c.rpc
    have hcount : ((echoNetwork.clients ()).rpcs c.rpc).endpointCount = 0 := by
      simp [echoNetwork, echoClient, hne, Client.RpcCall.endpointCount, Client.RpcCall.endpoints]
    exact hstarted (hattempts.unstarted c.attempt ((hattempts.length_le.trans hcount.le).trans (Nat.zero_le _)))
  exact fun c c' hc hc' _ => (hzero c hc).trans (hzero c' hc').symm

end

/-! ## 要求の到着 -/

/-- サーバーの接続が復号した要求は、相手の接続に書き終えた呼び出しの要求を、書いた順に先頭から並べたものである。どの呼び出しも
一度しか現れず、そのフレームは全部が届いている。 -/
theorem requests_arrive_in_order (h : (network cfg).Reach FreshDescriptors s) {l : ℓ} {n : Nat} {k : κ} {g : Client.ConnId}
    (hpeer : s.peer l n = some (k, g)) (hshared : SharedProtobuf cfg k l) :
    ∃ calls part m, Client.WrittenFrames (cfg.clients k).config (s.clients k).client g calls part ∧
      ((s.servers l).objects n).decoded = (calls.take m).map (requestOf cfg k) ∧
      (calls.take m).flatMap (cfg.clients k).config.requestFrame <+: (s.written (k, g)).take (s.delivered (k, g)) := by
  obtain ⟨calls, part, hwritten⟩ := Client.reach_writtenFrames (reach_client h k) g
  obtain ⟨m, hdecoded, harrived⟩ := reach_requests h hpeer hshared hwritten
  exact ⟨calls, part, m, hwritten, hdecoded, harrived⟩

/-- 二つの RPC の要求。 -/
def pairRequest (f : Nat) : RequestEnvelope := requestOf pairNetwork () ⟨f, 0⟩

def pairFrame (f : Nat) : Bytes := (pairNetwork.clients ()).config.requestFrame ⟨f, 0⟩

/-- 一つの接続に二つの要求を書き、サーバーは、二つ目の途中までと残りとに分けて受け取る。 -/
def pairRequests : List (NetworkAct Unit Unit) :=
  clientActs ([.connectOk ⟨0, 0⟩ 3 0, .assignReader ⟨0, 0⟩ 0] ++ Client.writes ⟨0, 0⟩ 3 0) ++
    [.client () (.resolve 1)] ++ clientActs ([.start ⟨1, 0⟩, .connected ⟨1, 0⟩] ++ Client.writes ⟨1, 0⟩ 3 0) ++
    serverActs [.start, .postStartConnection] ++
    [.accept () () 0 false, .receive () 0 false false (pairFrame 0 ++ (pairFrame 1).take 5)] ++
    serverActs [.submitAccepted 0 [⟨0, pairRequest 0⟩], .countAdmitted 0 false 1] ++
    [.receive () 0 false false ((pairFrame 1).drop 5)]

theorem requests_arrive_in_order_echo :
    ∃ s calls part m, (network pairNetwork).Reach FreshDescriptors s ∧ s.peer () 0 = some ((), 0) ∧
      ((s.servers ()).objects 0).decoded = [pairRequest 0, pairRequest 1] ∧
      Client.WrittenFrames (pairNetwork.clients ()).config (s.clients ()).client 0 calls part ∧
      (calls.take m).map (requestOf pairNetwork ()) = [pairRequest 0, pairRequest 1] := by
  have hopened : (network pairNetwork).Reach FreshDescriptors (openedCall pairNetwork) :=
    reach_openedCall (by decide) (by decide) (by decide) rfl
  obtain ⟨s, hs, hp⟩ := exists_reach_of_opened hopened pairRequests
    (fun s => decide (s.peer () 0 = some ((), 0) ∧
      ((s.servers ()).objects 0).decoded = [pairRequest 0, pairRequest 1]))
    (by decide +kernel) (by decide +kernel)
  obtain ⟨hpeer, hdecoded⟩ := of_decide_eq_true hp
  obtain ⟨calls, part, m, hwritten, hmap, -⟩ := requests_arrive_in_order hs hpeer ⟨proto3_lawful, rfl⟩
  exact ⟨s, calls, part, m, hs, hpeer, hdecoded, hwritten, hmap.symm.trans hdecoded⟩

/-! ## 要求の重複 -/

/-- 一つの RPC の要求は、すべてのサーバーのすべての接続を通して、高々一度しか復号されない。 -/
theorem rpc_decoded_at_most_once (h : (network cfg).Reach FreshDescriptors s) {k : κ} (hids : DistinctIds cfg s k)
    {l l' : ℓ} {n n' i i' : Nat} {g g' : Client.ConnId} {request request' : RequestEnvelope}
    (hshared : SharedProtobuf cfg k l) (hshared' : SharedProtobuf cfg k l')
    (hpeer : s.peer l n = some (k, g)) (hpeer' : s.peer l' n' = some (k, g'))
    (hget : ((s.servers l).objects n).decoded[i]? = some request)
    (hget' : ((s.servers l').objects n').decoded[i']? = some request')
    (hid : request.requestId = request'.requestId) : l = l' ∧ n = n' ∧ i = i' := by
  have hsame : ∀ {c c' g g'}, (s.clients k).client.wrote c = some g → (s.clients k).client.wrote c' = some g' →
      requestOf cfg k c = request → requestOf cfg k c' = request' → c = c' := by
    intro c c' g g' hw hw' hrequest hrequest'
    refine wrote_unique h hw hw' (hids c c' (started_of_wrote h hw) (started_of_wrote h hw') ?_)
    rw [hrequest, hrequest']
    exact hid
  obtain ⟨calls, part, hwritten⟩ := Client.reach_writtenFrames (reach_client h k) g
  obtain ⟨c, hc, hw, hrequest⟩ := decoded_origin h hpeer hshared hwritten hget
  -- 書き終えた接続が同じなので、相手の実体も同じである
  have hg : g' = g := by
    obtain ⟨calls', part', hwritten'⟩ := Client.reach_writtenFrames (reach_client h k) g'
    obtain ⟨c', -, hw', hrequest'⟩ := decoded_origin h hpeer' hshared' hwritten' hget'
    have heq := hsame hw hw' hrequest hrequest'
    subst heq
    exact Option.some.inj (hw'.symm.trans hw)
  subst hg
  obtain ⟨rfl, rfl⟩ := (reach_linked h).peer_unique l n l' n' _ hpeer hpeer'
  obtain ⟨c', hc', hw', hrequest'⟩ := decoded_origin h hpeer' hshared' hwritten hget'
  obtain rfl := hsame hw hw' hrequest hrequest'
  refine ⟨rfl, rfl, ?_⟩
  obtain ⟨hlt, hi⟩ := List.getElem?_eq_some_iff.mp hc
  obtain ⟨hlt', hi'⟩ := List.getElem?_eq_some_iff.mp hc'
  exact (List.Nodup.getElem_inj_iff hwritten.nodup).mp (hi.trans hi'.symm)

theorem rpc_decoded_at_most_once_echo :
    ∃ s, (network echoNetwork).Reach FreshDescriptors s ∧ s.peer () 0 = some ((), 0) ∧
      ((s.servers ()).objects 0).decoded[0]? = some Server.echoRequest.envelope ∧
      ∀ n i g, s.peer () n = some ((), g) → ((s.servers ()).objects n).decoded[i]? = some Server.echoRequest.envelope →
        0 = n ∧ 0 = i := by
  obtain ⟨s, hs, hp⟩ := exists_reach_of_opened reach_openedEcho echoRequests
    (fun s => decide (s.peer () 0 = some ((), 0) ∧
      ((s.servers ()).objects 0).decoded[0]? = some Server.echoRequest.envelope)) (by decide) (by decide +kernel)
  obtain ⟨hpeer, hget⟩ := of_decide_eq_true hp
  refine ⟨s, hs, hpeer, hget, fun n i g hpeer' hget' => ?_⟩
  exact (rpc_decoded_at_most_once hs (distinctIds_echo hs) sharedProtobuf_echo sharedProtobuf_echo hpeer hpeer' hget hget'
    rfl).2

/-! ## 応答の出どころ -/

/-- 呼び出しに返った応答は、サーバーが、その呼び出しの要求を復号して作った応答である。届く間に変わるのは、OK の文言と、
直列化できない大きさの状態だけであり、どちらも文言のない OK になる。 -/
theorem returned_response_answers_request (h : (network cfg).Reach FreshDescriptors s) {k : κ}
    (hids : DistinctIds cfg s k) (hshared : ∀ l, SharedProtobuf cfg k l) {c : Client.CallId} {r : ResponseEnvelope}
    (hpc : (s.clients k).client.pc c = .returned (.response r)) :
    ∃ l n g, s.peer l n = some (k, g) ∧ ∃ response ∈ s.enqueuedBy l n,
      r = response.envelope.received ∧ response.request.envelope = requestOf cfg k c ∧
        (response.Dispatched (cfg.servers l) ∨ response.Refused (cfg.servers l)) := by
  have hclient := reach_client h k
  obtain ⟨completion, hres, hr⟩ := Client.returned_response hclient.reachable hpc
  obtain ⟨g, i, -, -, hget, hid⟩ := (Client.reachable_sourced hclient.reachable).response c completion (.inr hres) r hr
  obtain ⟨l, n, hpeer⟩ : ∃ l n, s.peer l n = some (k, g) := peer_of_decoded h fun hnil => by
    rw [hnil] at hget
    cases hget
  obtain ⟨m, hdecoded⟩ := reach_responses h hpeer (hshared l)
  have hmem := List.mem_of_getElem? hget
  rw [hdecoded] at hmem
  obtain ⟨response, htake, rfl⟩ := List.mem_map.mp hmem
  have henqueued := List.mem_of_mem_take htake
  obtain ⟨hanswer, hrequest⟩ := enqueued_answers h ((reach_linked h).peer_lt l n _ hpeer) henqueued
  obtain ⟨calls, part, hwritten⟩ := Client.reach_writtenFrames hclient g
  obtain ⟨c', -, hw, horigin⟩ := decoded_origin h hpeer (hshared l) hwritten hrequest
  refine ⟨l, n, g, hpeer, response, henqueued, rfl, ?_, hanswer⟩
  -- 番号が等しいので、応答の要求は、この呼び出しと同じ RPC のものである
  have hrpc : c'.rpc = c.rpc := by
    refine hids c' c (started_of_wrote h hw) (by rw [hpc]; rintro ⟨⟩) ?_
    rw [horigin, ← answer_requestId hanswer]
    exact hid
  rw [← horigin]
  show ((cfg.clients k).rpcs c'.rpc).request = ((cfg.clients k).rpcs c.rpc).request
  rw [hrpc]

theorem returned_response_answers_request_echo :
    ∃ s, (network echoNetwork).Reach FreshDescriptors s ∧
      (s.clients ()).client.pc ⟨0, 0⟩ = .returned (.response echoAnswer) ∧
      ∃ n g, s.peer () n = some ((), g) ∧ ∃ response ∈ s.enqueuedBy () n,
        echoAnswer = response.envelope.received ∧ response.request.envelope = Server.echoRequest.envelope := by
  obtain ⟨s, hs, hp⟩ := exists_reach_of_opened reach_openedEcho (echoRequests ++ echoReplies)
    (fun s => decide ((s.clients ()).client.pc ⟨0, 0⟩ = .returned (.response echoAnswer))) (by decide +kernel)
    (by decide +kernel)
  have hpc := of_decide_eq_true hp
  obtain ⟨⟨⟩, n, g, hpeer, response, hmem, hr, hrequest, -⟩ :=
    returned_response_answers_request hs (distinctIds_echo hs) (fun _ => sharedProtobuf_echo) hpc
  exact ⟨s, hs, hpc, n, g, hpeer, response, hmem, hr, hrequest⟩

end Xrpc.Deployment.Network
