import Xrpc.Lib.Machine
import Xrpc.Naming.ConsulDiscovery

/-!
# Consul への登録

`src/naming/consul/consul_registrar.cpp` を写す。JSON の書き出し `nlohmann::json::dump` は、UTF-8 でない文字列で例外を投げる。
登録を受ける側は、届いた要求の道と本体を読んで、持っている識別子を変える。答えが届かないこともある。
-/

namespace Xrpc.Naming
open Xrpc.Lib Xrpc.Protocol

/-! ## 登録の内容 -/

/-- `ConsulRegistrar::Options`。 -/
structure RegistrarOptions where
  serviceName : Bytes
  serviceId : Bytes
  serviceAddress : Bytes
  servicePort : UInt16 := 0
  deriving DecidableEq

def validateOptions (options : RegistrarOptions) : Status :=
  if options.serviceName = [] then ⟨.invalidArgument, text "ConsulRegistrar service_name must not be empty"⟩
  else if options.serviceId = [] then ⟨.invalidArgument, text "ConsulRegistrar service_id must not be empty"⟩
  else if options.serviceAddress = [] then ⟨.invalidArgument, text "ConsulRegistrar service_address must not be empty"⟩
  else if options.servicePort = 0 then ⟨.invalidArgument, text "ConsulRegistrar service_port must be non-zero"⟩
  else {}

def TCP_CHECK_INTERVAL : Bytes := text "5s"
def TCP_CHECK_TIMEOUT : Bytes := text "1s"

/-- `std::map` に置かれるので、欄は名前の順に並ぶ。 -/
def registerPayload (options : RegistrarOptions) : Json :=
  .object
    [(text "Address", .string options.serviceAddress),
      (text "Check", .object
        [(text "Interval", .string TCP_CHECK_INTERVAL),
          (text "Name", .string (text "xRPC TCP health check")),
          (text "TCP", .string (options.serviceAddress ++ text ":" ++ toDecimal options.servicePort.toNat)),
          (text "Timeout", .string TCP_CHECK_TIMEOUT)]),
      (text "ID", .string options.serviceId),
      (text "Name", .string options.serviceName),
      (text "Port", .unsigned options.servicePort.toUInt64)]

/-- `none` は、`dump` が例外を投げたことを表す。 -/
def buildRegisterPayload (dump : Json → Option Bytes) (options : RegistrarOptions) : Option Bytes :=
  dump (registerPayload options)

def handleAgentWriteResponse : Except Status ConsulHttpResponse → Status
  | .error status => status
  | .ok response =>
      if response.statusCode < 200 ∨ 300 ≤ response.statusCode then
        ⟨.unavailable, text "Consul agent request failed with HTTP status " ++ toSignedDecimal response.statusCode⟩
      else {}

def REGISTER_PATH : Bytes := text "/v1/agent/service/register?replace-existing-checks=true"
def DEREGISTER_PATH : Bytes := text "/v1/agent/service/deregister/"

/-! ## 登録と取り消し -/

structure ConsulRegistrar where
  registered : Bool := false
  registeredServiceId : Bytes := []
  deriving DecidableEq

namespace ConsulRegistrar

variable {σ : Type}

/-- 書き込みの要求の道と本体を送り、答えを得る。`σ` は、受ける側の状態である。 -/
abbrev Put (σ : Type) := Bytes → Bytes → σ → Except Status ConsulHttpResponse × σ

/-- 呼び出しの終わり。`status` の `none` は、例外で終わったことを表す。 -/
structure Outcome (σ : Type) where
  status : Option Status
  registrar : ConsulRegistrar
  agent : σ

/-- 要求を送り、成功の答えが返れば、記録を `recorded` に変える。 -/
def write (r recorded : ConsulRegistrar) (put : Put σ) (path body : Bytes) (agent : σ) : Outcome σ :=
  let sent := put path body agent
  let status := handleAgentWriteResponse sent.1
  if !status.isOk then ⟨some status, r, sent.2⟩ else ⟨some {}, recorded, sent.2⟩

def register (r : ConsulRegistrar) (dump : Json → Option Bytes) (put : Put σ) (options : RegistrarOptions) (agent : σ) :
    Outcome σ :=
  if !(validateOptions options).isOk then ⟨some (validateOptions options), r, agent⟩
  else
    match buildRegisterPayload dump options with
    | none => ⟨none, r, agent⟩
    | some payload => r.write ⟨true, options.serviceId⟩ put REGISTER_PATH payload agent

def deregister (r : ConsulRegistrar) (put : Put σ) (agent : σ) : Outcome σ :=
  if !r.registered then ⟨some {}, r, agent⟩
  else r.write ⟨false, []⟩ put (DEREGISTER_PATH ++ r.registeredServiceId) [] agent

end ConsulRegistrar

/-! ## 登録を受ける側 -/

/-- 道の中で、そのままの文字として読まれる文字。 -/
def unreserved (b : UInt8) : Bool :=
  65 ≤ b && b ≤ 90 || 97 ≤ b && b ≤ 122 || 48 ≤ b && b ≤ 57 || b = 45 || b = 46 || b = 95 || b = 126

/-- 要求を読む側。`parse` は本体の JSON の読み取り、`unescape` は道の終わりの読み取りで、どちらも読めずに断ることがある。 -/
structure ConsulAgent (dump : Json → Option Bytes) where
  parse : Bytes → Option Json
  unescape : Bytes → Option Bytes
  parse_dump : ∀ options body, dump (registerPayload options) = some body → parse body = some (registerPayload options)
  unescape_plain : ∀ id : Bytes, id.all unreserved = true → unescape id = some id

namespace ConsulAgent

variable {dump : Json → Option Bytes}

/-- 登録の本体から読む識別子。 -/
def serviceId (agent : ConsulAgent dump) (body : Bytes) : Option Bytes :=
  match agent.parse body with
  | some (.object fields) =>
      match jsonField fields "ID" with
      | some (.string id) => some id
      | _ => none
  | _ => none

/-- 取り消しの道から読む識別子。 -/
def target (agent : ConsulAgent dump) (path : Bytes) : Option Bytes :=
  if DEREGISTER_PATH.isPrefixOf path then agent.unescape (path.drop DEREGISTER_PATH.length) else none

/-- 要求を行った後に持っている識別子。読めない要求は断る。 -/
def perform (agent : ConsulAgent dump) (path body : Bytes) (held : List Bytes) : Option (List Bytes) :=
  if path = REGISTER_PATH then (agent.serviceId body).map held.insert
  else (agent.target path).map fun id => held.filter (· ≠ id)

end ConsulAgent

/-- 要求と答えの届き方。`unreached` は要求が届かず、`refused` は行われずに断られ、`lost` は行われたが答えが届かない。 -/
inductive Delivery where
  | unreached (failure : Status)
  | refused (statusCode : Int)
  | lost (failure : Status)
  | answered

namespace Delivery

variable {dump : Json → Option Bytes}

/-- 失敗は成功の符号を持たず、断りの答えは 2xx でない。 -/
def possible : Delivery → Prop
  | .unreached failure | .lost failure => failure.isOk = false
  | .refused statusCode => statusCode < 200 ∨ 300 ≤ statusCode
  | .answered => True

instance decidablePossible : (delivery : Delivery) → Decidable delivery.possible
  | .unreached _ | .lost _ => inferInstanceAs (Decidable (_ = _))
  | .refused _ => inferInstanceAs (Decidable (_ ∨ _))
  | .answered => inferInstanceAs (Decidable True)

def put (agent : ConsulAgent dump) (delivery : Delivery) : ConsulRegistrar.Put (List Bytes) := fun path body held =>
  match delivery with
  | .unreached failure => (.error failure, held)
  | .refused statusCode => (.ok ⟨statusCode, [], []⟩, held)
  | .lost failure => (.error failure, (agent.perform path body held).getD held)
  | .answered =>
      match agent.perform path body held with
      | none => (.ok ⟨400, [], []⟩, held)
      | some held => (.ok ⟨200, [], []⟩, held)

end Delivery

/-- `held` は、登録を受ける側が持っている識別子である。 -/
structure Registration where
  registrar : ConsulRegistrar := {}
  held : List Bytes := []

inductive RegistrationAct where
  | register (options : RegistrarOptions) (delivery : Delivery)
  | deregister (delivery : Delivery)

def RegistrationAct.delivery : RegistrationAct → Delivery
  | .register _ delivery | .deregister delivery => delivery

namespace Registration

variable {dump : Json → Option Bytes} (agent : ConsulAgent dump)

/-- 呼び出しの終わり。 -/
def outcome (s : Registration) : RegistrationAct → ConsulRegistrar.Outcome (List Bytes)
  | .register options delivery => s.registrar.register dump (delivery.put agent) options s.held
  | .deregister delivery => s.registrar.deregister (delivery.put agent) s.held

def next (s : Registration) (a : RegistrationAct) : Registration := ⟨(s.outcome agent a).registrar, (s.outcome agent a).agent⟩

def registration : Machine Registration RegistrationAct where
  init s := s = {}
  enabled _ a := a.delivery.possible
  next := next agent

/-- 行われた取り消しの答えは届く。 -/
def DeregisterAcknowledged (_ : Registration) : RegistrationAct → Prop
  | .register _ _ => True
  | .deregister delivery => ∀ failure, delivery ≠ .lost failure

/-- 登録の識別子は `id` だけで、行われた要求の答えは届く。 -/
def Acknowledged (id : Bytes) (_ : Registration) (a : RegistrationAct) : Prop :=
  (∀ failure, a.delivery ≠ .lost failure) ∧ ∀ options delivery, a = .register options delivery → options.serviceId = id

/-! ## 一回の要求 -/

section
variable {agent} {body : Bytes} {held : List Bytes} {delivery : Delivery}

/-- 成功が返るのは、要求が行われて答えが届いたときだけである。失敗が返れば、記録は変わらない。 -/
theorem write_cases (r recorded : ConsulRegistrar) (path body : Bytes) (held : List Bytes) (hpossible : delivery.possible) :
    (∃ held', delivery = .answered ∧ agent.perform path body held = some held' ∧
        r.write recorded (delivery.put agent) path body held = ⟨some {}, recorded, held'⟩) ∨
      ∃ status held', status.isOk = false ∧
        r.write recorded (delivery.put agent) path body held = ⟨some status, r, held'⟩ ∧
        (held' = held ∨ (∃ failure, delivery = .lost failure) ∧ agent.perform path body held = some held') := by
  have hfailed : ∀ {status : Status} {held'}, status.isOk = false →
      (delivery.put agent path body held).2 = held' →
      handleAgentWriteResponse (delivery.put agent path body held).1 = status →
      r.write recorded (delivery.put agent) path body held = ⟨some status, r, held'⟩ := by
    rintro _ _ hstatus rfl rfl
    rw [ConsulRegistrar.write]
    simp only [hstatus, Bool.not_false, if_true]
  cases delivery with
  | unreached failure => exact .inr ⟨failure, held, hpossible, hfailed hpossible rfl rfl, .inl rfl⟩
  | refused statusCode => exact .inr ⟨_, held, rfl, hfailed rfl rfl (if_pos hpossible), .inl rfl⟩
  | lost failure =>
      have hheld : ((Delivery.lost failure).put agent path body held).2 = (agent.perform path body held).getD held := rfl
      refine .inr ⟨failure, _, hpossible, hfailed hpossible hheld rfl, ?_⟩
      cases agent.perform path body held with
      | none => exact .inl rfl
      | some held' => exact .inr ⟨⟨failure, rfl⟩, rfl⟩
  | answered =>
      cases hperform : agent.perform path body held with
      | none =>
          have hput : Delivery.answered.put agent path body held = (.ok ⟨400, [], []⟩, held) := by
            simp only [Delivery.put, hperform]
          exact .inr ⟨_, held, rfl, hfailed rfl (congrArg Prod.snd hput)
            (congrArg (handleAgentWriteResponse ∘ Prod.fst) hput), .inl rfl⟩
      | some held' =>
          refine .inl ⟨held', rfl, rfl, ?_⟩
          simp only [ConsulRegistrar.write, Delivery.put, hperform]
          rfl

/-- 登録の要求は、本体の識別子を加える。 -/
theorem perform_register {options : RegistrarOptions} (hbody : buildRegisterPayload dump options = some body) :
    agent.perform REGISTER_PATH body held = some (held.insert options.serviceId) := by
  have hid : agent.serviceId body = some options.serviceId := by
    rw [ConsulAgent.serviceId, agent.parse_dump options body hbody]
    rfl
  rw [ConsulAgent.perform, if_pos rfl, hid, Option.map_some]

/-- そのまま読まれる識別子の取り消しの要求は、その識別子を除く。 -/
theorem perform_deregister {id : Bytes} (hplain : id.all unreserved = true) :
    agent.perform (DEREGISTER_PATH ++ id) [] held = some (held.filter (· ≠ id)) := by
  have hpath : DEREGISTER_PATH ++ id ≠ REGISTER_PATH := by
    intro heq
    -- 二つの道は、十九文字目で分かれる
    have hat := congrArg (·[18]?) heq
    rw [List.getElem?_append_left (by decide)] at hat
    revert hat
    decide
  have htarget : agent.target (DEREGISTER_PATH ++ id) = some id := by
    rw [ConsulAgent.target, if_pos (List.isPrefixOf_iff_prefix.mpr (List.prefix_append _ _)), List.drop_left,
      agent.unescape_plain id hplain]
  rw [ConsulAgent.perform, if_neg hpath, htarget, Option.map_some]

/-- 検査を通る登録の識別子は、空でない。 -/
theorem serviceId_ne_nil {options : RegistrarOptions} (h : (validateOptions options).isOk = true) :
    options.serviceId ≠ [] := by
  intro hnil
  unfold validateOptions at h
  rw [if_pos hnil] at h
  split at h <;> cases h

end

/-- 登録の終わり方。 -/
theorem register_cases (s : Registration) (options : RegistrarOptions) (delivery : Delivery) (hpossible : delivery.possible) :
    (validateOptions options).isOk = true ∧ delivery = .answered ∧
        s.outcome agent (.register options delivery) =
          ⟨some {}, ⟨true, options.serviceId⟩, s.held.insert options.serviceId⟩ ∨
      ∃ status held', status ≠ some {} ∧ s.outcome agent (.register options delivery) = ⟨status, s.registrar, held'⟩ ∧
        (held' = s.held ∨ (∃ failure, delivery = .lost failure) ∧ held' = s.held.insert options.serviceId) := by
  have hne : ∀ {status : Status}, status.isOk = false → some status ≠ some {} := by
    rintro status hfail heq
    rw [Option.some.inj heq] at hfail
    cases hfail
  rw [outcome, ConsulRegistrar.register]
  cases hvalid : (validateOptions options).isOk with
  | false => exact .inr ⟨_, s.held, hne hvalid, rfl, .inl rfl⟩
  | true =>
      cases hbody : buildRegisterPayload dump options with
      | none => exact .inr ⟨none, s.held, by rintro ⟨⟩, rfl, .inl rfl⟩
      | some body =>
          rcases write_cases s.registrar ⟨true, options.serviceId⟩ REGISTER_PATH body s.held hpossible with
            ⟨held', hanswered, hperform, hwrite⟩ | ⟨status, held', hfail, hwrite, hheld⟩
          · obtain rfl := Option.some.inj ((perform_register hbody).symm.trans hperform)
            exact .inl ⟨rfl, hanswered, hwrite⟩
          · refine .inr ⟨_, held', hne hfail, hwrite, hheld.imp_right ?_⟩
            rintro ⟨hlost, hperform⟩
            exact ⟨hlost, (Option.some.inj ((perform_register hbody).symm.trans hperform)).symm⟩

/-- 取り消しの終わり方。 -/
theorem deregister_cases (s : Registration) (delivery : Delivery) (hpossible : delivery.possible) :
    s.registrar.registered = false ∧ s.outcome agent (.deregister delivery) = ⟨some {}, s.registrar, s.held⟩ ∨
      s.registrar.registered = true ∧
        ((∃ held', delivery = .answered ∧
            agent.perform (DEREGISTER_PATH ++ s.registrar.registeredServiceId) [] s.held = some held' ∧
            s.outcome agent (.deregister delivery) = ⟨some {}, ⟨false, []⟩, held'⟩) ∨
          ∃ status held', status.isOk = false ∧
            s.outcome agent (.deregister delivery) = ⟨some status, s.registrar, held'⟩ ∧
            (held' = s.held ∨ ∃ failure, delivery = .lost failure)) := by
  rw [outcome, ConsulRegistrar.deregister]
  cases s.registrar.registered with
  | false => exact .inl ⟨rfl, rfl⟩
  | true =>
      refine .inr ⟨rfl, (write_cases _ _ _ _ _ hpossible).imp_right ?_⟩
      rintro ⟨status, held', hfail, hwrite, hheld⟩
      exact ⟨status, held', hfail, hwrite, hheld.imp_right And.left⟩

/-! ## 登録の記録と、受ける側 -/

variable {agent} {s : Registration}

/-- 記録された識別子は、受ける側が持っている。 -/
structure Recorded (s : Registration) : Prop where
  held : s.registrar.registered = true → s.registrar.registeredServiceId ∈ s.held
  nonempty : s.registrar.registered = true → s.registrar.registeredServiceId ≠ []
  cleared : s.registrar.registered = false → s.registrar.registeredServiceId = []

theorem Recorded.step {a : RegistrationAct} (h : s.Recorded) (ha : a.delivery.possible) (hack : s.DeregisterAcknowledged a) :
    (next agent s a).Recorded := by
  -- 記録が変わらず、記録された識別子が失われない場合
  have hkeep : ∀ {status held'}, s.outcome agent a = ⟨status, s.registrar, held'⟩ → (∀ id ∈ s.held, id ∈ held') →
      (next agent s a).Recorded := by
    intro status held' hout hheld
    rw [next, hout]
    exact ⟨fun hregistered => hheld _ (h.held hregistered), h.nonempty, h.cleared⟩
  cases a with
  | register options delivery =>
      rcases register_cases agent s options delivery ha with ⟨hvalid, -, hout⟩ | ⟨status, held', -, hout, hheld⟩
      · rw [next, hout]
        exact ⟨fun _ => List.mem_insert_self, fun _ => serviceId_ne_nil hvalid, fun hfalse => by cases hfalse⟩
      · refine hkeep hout fun id hmem => ?_
        rcases hheld with rfl | ⟨-, rfl⟩
        · exact hmem
        · exact List.mem_insert_of_mem hmem
  | deregister delivery =>
      rcases deregister_cases agent s delivery ha with
        ⟨-, hout⟩ | ⟨-, ⟨held', -, -, hout⟩ | ⟨status, held', -, hout, hheld⟩⟩
      · exact hkeep hout fun _ hmem => hmem
      · rw [next, hout]
        exact ⟨fun hfalse => (by cases hfalse), fun hfalse => (by cases hfalse), fun _ => rfl⟩
      · rcases hheld with rfl | ⟨failure, hlost⟩
        · exact hkeep hout fun _ hmem => hmem
        · exact absurd hlost (hack failure)

def echoOptions : RegistrarOptions := ⟨text "echo", text "echo_1", text "10.0.0.1", 80⟩

/-- 名前と住所の決まったサービスの登録だけを書き出す例。 -/
def echoDump : Json → Option Bytes
  | .object [(_, .string address), _, (_, .string id), (_, .string name), (_, .unsigned port)] =>
      if address = echoOptions.serviceAddress ∧ name = echoOptions.serviceName ∧ port = echoOptions.servicePort.toUInt64 then
        some id
      else none
  | _ => none

def echoAgent : ConsulAgent echoDump where
  parse body := some (registerPayload { echoOptions with serviceId := body })
  unescape := some
  parse_dump := by
    intro options body h
    dsimp only [registerPayload, echoDump] at h
    split at h
    next hsame =>
      obtain ⟨haddress, hname, hport⟩ := hsame
      obtain rfl := Option.some.inj h
      obtain ⟨name, id, address, port⟩ := options
      obtain rfl : address = _ := haddress
      obtain rfl : name = _ := hname
      obtain rfl : port = _ := UInt16.toUInt64_inj.mp hport
      rfl
    next => cases h
  unescape_plain _ _ := rfl

/-- 受ける側の持つ識別子は、登録していると記録しているときの `id` だけである。 -/
structure Matches (id : Bytes) (s : Registration) : Prop where
  held : s.held = if s.registrar.registered = true then [id] else []
  recorded : s.registrar.registered = true → s.registrar.registeredServiceId = id

theorem Matches.step {id : Bytes} {a : RegistrationAct} (h : s.Matches id) (hplain : id.all unreserved = true)
    (ha : a.delivery.possible) (hack : s.Acknowledged id a) : (next agent s a).Matches id := by
  have hkeep : ∀ {status}, s.outcome agent a = ⟨status, s.registrar, s.held⟩ → (next agent s a).Matches id := by
    intro status hout
    rw [next, hout]
    exact h
  cases a with
  | register options delivery =>
      obtain rfl : options.serviceId = id := hack.2 options delivery rfl
      rcases register_cases agent s options delivery ha with ⟨-, -, hout⟩ | ⟨status, held', -, hout, rfl | ⟨⟨failure, hlost⟩, -⟩⟩
      · rw [next, hout]
        refine ⟨?_, fun _ => rfl⟩
        dsimp only
        rw [h.held, if_pos rfl]
        split <;> simp
      · exact hkeep hout
      · exact absurd hlost (hack.1 failure)
  | deregister delivery =>
      rcases deregister_cases agent s delivery ha with
        ⟨-, hout⟩ | ⟨hregistered, ⟨held', -, hperform, hout⟩ | ⟨status, held', -, hout, rfl | ⟨failure, hlost⟩⟩⟩
      · exact hkeep hout
      · rw [h.recorded hregistered, perform_deregister hplain, h.held, if_pos hregistered] at hperform
        obtain rfl := Option.some.inj hperform
        rw [next, hout]
        refine ⟨?_, fun hfalse => by cases hfalse⟩
        simp
      · exact hkeep hout
      · exact absurd hlost (hack.1 failure)

/-- 登録の答えが失われると、受ける側に識別子が残り、取り消しの要求は送られない。 -/
theorem lost_answer_keeps_service :
    ∃ s, (registration echoAgent).Reachable s ∧ s.held = [echoOptions.serviceId] ∧
      ∀ delivery, (next echoAgent s (.deregister delivery)).held = s.held := by
  have h := (Machine.Reach.init (M := registration echoAgent) (C := fun _ _ => True) (s := {}) rfl)
    |>.step (a := RegistrationAct.register echoOptions (.lost ⟨.deadlineExceeded, []⟩)) rfl trivial
  exact ⟨_, h, by decide, fun delivery => rfl⟩

end Registration

end Xrpc.Naming
