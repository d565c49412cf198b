import Xrpc.Client.Lemmas.Descriptors
import Xrpc.Client.Lemmas.ReaderLoop

/-!
# 受信スレッドが受け取ったバイトと、復号した応答
-/

namespace Xrpc.Client
open Xrpc.Lib Xrpc.Protocol Function

variable {cfg : Config} {s : State} {g : ConnId} {received : Bytes}

/-- 接続 `g` の応答の復号器。上限は、接続の輸送路のものである。 -/
def State.responses (cfg : Config) (s : State) (g : ConnId) : StreamDecoder UInt8 ResponseEnvelope :=
  responseDecoder cfg.env.platform (cfg.transports (s.connTransport g)).protocolLimits

/-- 接続 `g` の受信スレッドに届くバイト。 -/
def Action.arrives (g : ConnId) : Action → Bytes
  | .recv g' bytes _ => if g' = g then bytes else []
  | _ => []

/-- 接続 `g` から受け取った `received` は、復号した応答のフレームを並べたものに、手元の残りを付けたものである。 -/
def Reads (cfg : Config) (s : State) (g : ConnId) (received : Bytes) : Prop :=
  ∃ consumed, (s.responses cfg g).Frames consumed (s.decoded g) ∧ consumed ++ s.readerBuffer g = received

namespace Reads

/-- 接続 `g` の手元も記録も変えない動作。 -/
theorem of_same {s' : State} (h : Reads cfg s g received) (hhome : s'.connTransport g = s.connTransport g)
    (hdecoded : s'.decoded g = s.decoded g) (hbuffer : s'.readerBuffer g = s.readerBuffer g) : Reads cfg s' g received := by
  obtain ⟨consumed, hframes, happend⟩ := h
  refine ⟨consumed, ?_, hbuffer ▸ happend⟩
  rw [State.responses, hhome, hdecoded]
  exact hframes

/-- 先頭のフレームを一つ復号する。 -/
theorem decodes {s' : State} (h : Reads cfg s g received) {g' : ConnId} {consumed : Nat} {response : ResponseEnvelope}
    (hdecodes : s.decodes cfg g' consumed response) (hhome : s'.connTransport = s.connTransport)
    (hbuffer : s'.readerBuffer = update s.readerBuffer g' ((s.readerBuffer g').drop consumed))
    (hdecoded : s'.decoded = update s.decoded g' (s.decoded g' ++ [response])) : Reads cfg s' g received := by
  by_cases hg : g = g'
  · subst hg
    obtain ⟨done, hframes, happend⟩ := h
    obtain ⟨-, hok, hresponse, hconsumed⟩ := hdecodes
    have hframe : (s.responses cfg g).decode (s.readerBuffer g) = .frame consumed response :=
      decodeStep_frame.mpr ⟨hok, hconsumed, hresponse⟩
    have hle := (s.responses cfg g).frame_le hframe
    have htake : (s.responses cfg g).decode ((s.readerBuffer g).take consumed) =
        .frame ((s.readerBuffer g).take consumed).length response := by
      rw [List.length_take, Nat.min_eq_left hle]
      exact (s.responses cfg g).frame_take hframe
    refine ⟨done ++ (s.readerBuffer g).take consumed, ?_, ?_⟩
    · rw [State.responses, hhome, hdecoded, update_self]
      exact hframes.append_frame htake
    · rw [hbuffer, update_self, List.append_assoc, List.take_append_drop]
      exact happend
  · exact h.of_same (by rw [hhome]) (by rw [hdecoded, update_of_ne hg]) (by rw [hbuffer, update_of_ne hg])

/-- 受け取ったものと復号したものの対応は、どの動作でも保たれる。 -/
theorem step {a : Action} (h : Reads cfg s g received) (ha : a.enabled cfg s) (hfresh : s.nextConn ≤ g → received = []) :
    Reads cfg (a.next cfg s) g (received ++ a.arrives g) := by
  cases a with
  | openSocket c fd =>
      rw [show (Action.openSocket c fd).arrives g = [] from rfl, List.append_nil]
      by_cases hg : g = s.nextConn
      · -- 作ったばかりの接続からは、何も受け取っていない
        obtain ⟨consumed, hframes, happend⟩ := h
        rw [hfresh hg.ge] at happend ⊢
        obtain ⟨rfl, hbuffer⟩ := List.append_eq_nil_iff.mp happend
        have hdecoded : s.decoded g = [] := hframes.nil_iff.mp rfl
        refine ⟨[], ?_, hbuffer⟩
        rw [show ((Action.openSocket c fd).next cfg s).decoded g = [] from hdecoded]
        exact .nil
      · exact h.of_same (update_of_ne hg _ _) rfl rfl
  | recv g' bytes actual =>
      by_cases hg : g' = g
      · subst hg
        obtain ⟨consumed, hframes, happend⟩ := h
        refine ⟨consumed, hframes, ?_⟩
        rw [show (Action.recv g' bytes actual).arrives g' = bytes from if_pos rfl]
        have hbuffer : ((Action.recv g' bytes actual).next cfg s).readerBuffer g' = s.readerBuffer g' ++ bytes := update_self _ _ _
        rw [hbuffer, ← List.append_assoc, happend]
      · rw [show (Action.recv g' bytes actual).arrives g = [] from if_neg hg, List.append_nil]
        exact h.of_same rfl rfl (update_of_ne (Ne.symm hg) _ _)
  | complete g' consumed response c =>
      rw [show (Action.complete g' consumed response c).arrives g = [] from rfl, List.append_nil]
      exact h.decodes ha.1 rfl rfl rfl
  | completeUnknown g' consumed response =>
      rw [show (Action.completeUnknown g' consumed response).arrives g = [] from rfl, List.append_nil]
      exact h.decodes ha.1 rfl rfl rfl
  | _ =>
      refine (List.append_nil received).symm ▸ ?_
      exact h.of_same rfl rfl rfl

end Reads

end Xrpc.Client
