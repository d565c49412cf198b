import Xrpc.Client.RpcClient
import Xrpc.Client.Lemmas.Descriptors
import Xrpc.Server.ConnectionIoLoop

/-!
# クライアントとサーバーをつないだ系

任意個のクライアントと、任意個のサーバーの入出力の繰り返しを、TCP の接続でつなぐ。クライアントもサーバーも、それぞれの遷移系の
動作しか行わない。TCP は、書かれたバイトを順に、欠けも重なりもなく、任意の区切りで届ける。接続は、いつ切れてもよい。
クライアントの接続 `(k, g)` は、高々一つの受け付けに現れる。ほかの相手からの接続には、任意のバイトが届く。
-/

namespace Xrpc.Deployment
open Xrpc.Lib Xrpc.Protocol Function

/-- 実行の間に変わらない設定。 -/
structure NetworkConfig (κ ℓ : Type) where
  clients : κ → Client.RpcConfig
  servers : ℓ → Server.ServerConnectionConfig

/-- `accepted` は、受け付けに渡ったクライアントの接続である。`peer l n` は、サーバー `l` の実体 `n` の相手の接続で、`none` は
ほかの相手を表す。`delivered` はサーバーに届いたバイト数、`returned` はクライアントに届いたバイト数である。 -/
structure Network (κ ℓ : Type) where
  clients : κ → Client.FailoverState
  servers : ℓ → Server.ConnectionIoLoop
  accepted : List (κ × Client.ConnId)
  peer : ℓ → Nat → Option (κ × Client.ConnId)
  delivered : κ × Client.ConnId → Nat
  returned : κ × Client.ConnId → Nat

inductive NetworkAct (κ ℓ : Type) where
  /-- クライアントの動作のうち、受信のほか。 -/
  | client (k : κ) (a : Client.FailoverAction)
  /-- クライアントの接続 `g` の受信スレッドが、接続 `actual` に届いたバイトを受け取る。 -/
  | recv (k : κ) (g : Client.ConnId) (bytes : Bytes) (actual : Client.ConnId) (l : ℓ) (n : Nat)
  /-- サーバーが、クライアントの接続 `(k, g)` の開始を行う。 -/
  | accept (l : ℓ) (k : κ) (g : Client.ConnId) (recvRefused : Bool)
  /-- サーバーの実体 `n` が、相手の書いたバイトを受け取る。 -/
  | receive (l : ℓ) (n : Nat) (sendRefused recvRefused : Bool) (bytes : Bytes)
  /-- サーバーの動作のうち、残りのもの。 -/
  | server (l : ℓ) (a : Server.ConnectionIoLoop.Act)

/-- 受信である動作。 -/
def receives : Client.FailoverAction → Bool
  | .call (.recv _ _ _) => true
  | _ => false

/-- 受信の完了を受け取る実体。 -/
def receiver : Server.ConnectionIoLoop.Act → Option Nat
  | .received n _ _ _ => some n
  | _ => none

namespace Network

variable {κ ℓ : Type} [DecidableEq κ] [DecidableEq ℓ] (cfg : NetworkConfig κ ℓ)

def initial : Network κ ℓ where
  clients _ := .initial
  servers l := .initial (cfg.servers l)
  accepted := []
  peer _ _ := none
  delivered _ := 0
  returned _ := 0

/-- クライアントの接続に書かれたバイト。 -/
def written (s : Network κ ℓ) (p : κ × Client.ConnId) : Bytes := ((s.clients p.1).client.sent p.2).map Prod.snd

/-- サーバーの実体が送ったバイト。 -/
def answered (s : Network κ ℓ) (l : ℓ) (n : Nat) : Bytes := ((s.servers l).objects n).core.sent

/-- まだ届いていないバイトの先頭である。 -/
def arrivable (s : Network κ ℓ) (bytes : Bytes) : Option (κ × Client.ConnId) → Bool
  | none => false
  | some p => bytes.isPrefixOf ((s.written p).drop (s.delivered p))

def deliver (s : Network κ ℓ) (count : Nat) : Option (κ × Client.ConnId) → κ × Client.ConnId → Nat
  | none => s.delivered
  | some p => update s.delivered p (s.delivered p + count)

def stepClient (s : Network κ ℓ) (k : κ) (a : Client.FailoverAction) : Network κ ℓ :=
  { s with clients := update s.clients k (a.next (cfg.clients k) (s.clients k)) }

def stepServer (s : Network κ ℓ) (l : ℓ) (a : Server.ConnectionIoLoop.Act) : Network κ ℓ :=
  { s with servers := update s.servers l ((s.servers l).next (cfg.servers l) a) }

def enabled (s : Network κ ℓ) : NetworkAct κ ℓ → Prop
  | .client k a => a.enabled (cfg.clients k) (s.clients k) ∧ receives a = false
  | .recv k g bytes actual l n =>
      (Client.FailoverAction.call (.recv g bytes actual)).enabled (cfg.clients k) (s.clients k) ∧
        s.peer l n = some (k, actual) ∧ bytes.isPrefixOf ((s.answered l n).drop (s.returned (k, actual))) = true
  | .accept l k g recvRefused =>
      ((s.servers l).aborted = false ∧ (s.servers l).enabled (.startConnection recvRefused)) ∧
        g < (s.clients k).client.nextConn ∧ (k, g) ∉ s.accepted
  | .receive l n sendRefused recvRefused bytes =>
      ((s.servers l).aborted = false ∧ (s.servers l).enabled (.received n sendRefused recvRefused bytes)) ∧
        s.arrivable bytes (s.peer l n) = true
  | .server l a => ((s.servers l).aborted = false ∧ (s.servers l).enabled a) ∧ ∀ n ∈ receiver a, s.peer l n = none

def next (s : Network κ ℓ) : NetworkAct κ ℓ → Network κ ℓ
  | .client k a => s.stepClient cfg k a
  | .recv k g bytes actual _ _ =>
      { s.stepClient cfg k (.call (.recv g bytes actual)) with
        returned := update s.returned (k, actual) (s.returned (k, actual) + bytes.length) }
  | .accept l k g recvRefused =>
      let s' := s.stepServer cfg l (.startConnection recvRefused)
      -- 受け付けを終えた繰り返しは、実体を作らずに接続を閉じる
      { s' with
        accepted := (k, g) :: s.accepted
        peer :=
          if (s'.servers l).created = (s.servers l).created then s.peer
          else update s.peer l (update (s.peer l) (s.servers l).created (some (k, g))) }
  | .receive l n sendRefused recvRefused bytes =>
      { s.stepServer cfg l (.received n sendRefused recvRefused bytes) with
        delivered := s.deliver bytes.length (s.peer l n) }
  | .server l a => s.stepServer cfg l a

/-- クライアントとサーバーをつないだ遷移系。 -/
def network : Machine (Network κ ℓ) (NetworkAct κ ℓ) where
  init s := s = initial cfg
  enabled := enabled cfg
  next := next cfg

/-- どのクライアントでも、写し持たれている番号は新しいソケットに渡らない。 -/
def FreshDescriptors (s : Network κ ℓ) : NetworkAct κ ℓ → Prop
  | .client k (.call a) => Client.FreshDescriptor (s.clients k).client a
  | _ => True

instance decidableClient (cfg : Client.RpcConfig) (s : Client.FailoverState) (a : Client.FailoverAction) :
    Decidable (a.enabled cfg s) :=
  inferInstanceAs (Decidable ((Client.failover cfg).enabled s a))

def decidableServer (cfg : Server.ServerConnectionConfig) (s : Server.ConnectionIoLoop) (a : Server.ConnectionIoLoop.Act) :
    Decidable (s.aborted = false ∧ s.enabled a) :=
  inferInstanceAs (Decidable ((Server.ConnectionIoLoop.connectionIoLoop cfg).enabled s a))

instance decidableEnabled (s : Network κ ℓ) : (a : NetworkAct κ ℓ) → Decidable (s.enabled cfg a)
  | .client _ _ => inferInstanceAs (Decidable (_ ∧ _))
  | .recv _ _ _ _ _ _ => inferInstanceAs (Decidable (_ ∧ _ ∧ _))
  | .accept l _ _ recvRefused =>
      haveI := decidableServer (cfg.servers l) (s.servers l) (.startConnection recvRefused)
      inferInstanceAs (Decidable (_ ∧ _ ∧ _))
  | .receive l n sendRefused recvRefused bytes =>
      haveI := decidableServer (cfg.servers l) (s.servers l) (.received n sendRefused recvRefused bytes)
      inferInstanceAs (Decidable (_ ∧ _))
  | .server l a =>
      haveI := decidableServer (cfg.servers l) (s.servers l) a
      inferInstanceAs (Decidable (_ ∧ ∀ n ∈ receiver a, _))

instance decidableNetworkEnabled (s : Network κ ℓ) (a : NetworkAct κ ℓ) : Decidable ((network cfg).enabled s a) :=
  decidableEnabled cfg s a

end Network

end Xrpc.Deployment
