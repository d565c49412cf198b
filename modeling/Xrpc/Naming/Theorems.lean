import Xrpc.Naming.Lemmas.StaticDiscovery
import Xrpc.Naming.Lemmas.ConsulDiscovery
import Xrpc.Naming.Lemmas.HttpMessage

/-!
# 接続先の一覧の定理

証明に使う補題は `Lemmas/` に置く。
-/

namespace Xrpc.Naming
open Xrpc.Lib Xrpc.Protocol

/-! ## 固定の接続先 -/

/-- 書いた目標は、書いた接続先の集合を表す。同じ集合を書いた目標は、同じ一覧になる。`list://` の目標を受け付けるのは、`,` で分けた欄が
すべて接続先を書いたものであるときに限る。 -/
theorem list_target_denotes_set (consulAddress : Bytes) :
    (∀ endpoints fields before after, endpoints ≠ [] → (∀ endpoint ∈ endpoints, endpoint.Listable) →
      List.Forall₂ Endpoint.WrittenAs endpoints fields → Blank before → Blank after →
      makeServiceDiscovery (listTarget before fields after) consulAddress =
          .ok (.static (canonicalizeEndpoints endpoints)) ∧
        parseListTarget (listTarget [] fields after) = .ok (canonicalizeEndpoints endpoints)) ∧
    (∀ endpoints, Canonical (canonicalizeEndpoints endpoints) ∧
      ∀ endpoint, endpoint ∈ canonicalizeEndpoints endpoints ↔ endpoint ∈ endpoints) ∧
    (∀ endpoints fields before after endpoints' fields' before' after', endpoints ≠ [] → endpoints' ≠ [] →
      (∀ endpoint ∈ endpoints, endpoint.Listable) → (∀ endpoint, endpoint ∈ endpoints ↔ endpoint ∈ endpoints') →
      List.Forall₂ Endpoint.WrittenAs endpoints fields → List.Forall₂ Endpoint.WrittenAs endpoints' fields' →
      Blank before → Blank after → Blank before' → Blank after' →
      makeServiceDiscovery (listTarget before fields after) consulAddress =
        makeServiceDiscovery (listTarget before' fields' after') consulAddress) ∧
    ∀ target rest, trim target = LIST_SCHEME ++ rest →
      ((∃ discovery, makeServiceDiscovery target consulAddress = .ok discovery) ↔
        ∀ field ∈ rest.splitOn 44, ∃ endpoint : Endpoint, endpoint.Listable ∧ endpoint.WrittenAs field) := by
  have hdenotes : ∀ endpoints fields before after, endpoints ≠ [] → (∀ endpoint ∈ endpoints, endpoint.Listable) →
      List.Forall₂ Endpoint.WrittenAs endpoints fields → Blank before → Blank after →
      makeServiceDiscovery (listTarget before fields after) consulAddress =
          .ok (.static (canonicalizeEndpoints endpoints)) ∧
        parseListTarget (listTarget [] fields after) = .ok (canonicalizeEndpoints endpoints) := by
    intro endpoints fields before after hne hlist hwritten hbefore hafter
    have hparse : parseFields ([44].intercalate fields ++ after) [] = .ok endpoints := by
      rw [parseFields_append_blank hafter, parseFields_written hne hlist hwritten]
    refine ⟨?_, ?_⟩
    · -- 右の空白は、最後の欄の空白になる
      obtain ⟨rest, ws, htrim, hrest, hws⟩ := exists_trim_scheme hbefore ([44].intercalate fields ++ after)
      rw [hrest, parseFields_append_blank hws] at hparse
      rw [listTarget, makeServiceDiscovery_list htrim, hparse]
      rfl
    · rw [listTarget, List.nil_append, parseListTarget_scheme, hparse]
      rfl
  refine ⟨hdenotes, fun endpoints => ?_, ?_, fun target rest htarget => ?_⟩
  · exact ⟨canonical_canonicalizeEndpoints endpoints, fun endpoint => mem_canonicalizeEndpoints⟩
  · intro endpoints fields before after endpoints' fields' before' after' hne hne' hlist hmem hwritten hwritten' hbefore
      hafter hbefore' hafter'
    have hlist' : ∀ endpoint ∈ endpoints', endpoint.Listable := fun endpoint h => hlist endpoint ((hmem endpoint).mpr h)
    have hset : canonicalizeEndpoints endpoints = canonicalizeEndpoints endpoints' := by
      refine (canonical_canonicalizeEndpoints _).ext (canonical_canonicalizeEndpoints _) fun endpoint => ?_
      rw [mem_canonicalizeEndpoints, mem_canonicalizeEndpoints, hmem]
    rw [(hdenotes _ _ _ _ hne hlist hwritten hbefore hafter).1,
      (hdenotes _ _ _ _ hne' hlist' hwritten' hbefore' hafter').1, hset]
  · rw [makeServiceDiscovery_list htarget]
    constructor
    · rintro ⟨discovery, hok⟩ field hfield
      cases hparse : parseFields rest [] with
      | error status => rw [hparse] at hok; cases hok
      | ok endpoints =>
          obtain ⟨parsed, -, hall⟩ := parseFields_eq_ok_iff.mp hparse
          obtain ⟨endpoint, hendpoint⟩ := exists_of_forall₂_left hall hfield
          obtain ⟨hne, htrim, hpos, hwritten⟩ := parseEndpoint_eq_ok_iff.mp hendpoint
          refine ⟨endpoint, ⟨hne, fun hcomma => ?_, htrim, hpos⟩, hwritten⟩
          exact notMem_of_mem_splitOn rest field hfield (hwritten.mem_of_mem_host hcomma)
    · intro hall
      have hfields : ∀ field ∈ rest.splitOn 44, ∃ endpoint, parseEndpoint field = .ok endpoint := by
        intro field hfield
        obtain ⟨endpoint, hlistable, hwritten⟩ := hall field hfield
        exact ⟨endpoint, parseEndpoint_eq_ok_iff.mpr
          ⟨hlistable.host_ne, hlistable.host_trimmed, hlistable.port_pos, hwritten⟩⟩
      obtain ⟨parsed, hparsed⟩ := exists_forall₂ hfields
      rw [parseFields_eq_ok_iff.mpr ⟨parsed, rfl, hparsed⟩]
      exact ⟨_, rfl⟩

/-- 重なりのある三つの欄。一つは、空白と先頭の 0 を含む。 -/
theorem list_target_denotes_set_three :
    makeServiceDiscovery (listTarget (text " ") [text "b:80", text " ::1 :\t08080", text "b:80"] (text "\n")) [] =
      .ok (.static [⟨text "::1", 8080⟩, ⟨text "b", 80⟩]) := by
  have hb : (⟨text "b", 80⟩ : Endpoint).WrittenAs (text "b:80") :=
    ⟨[], [], [], text "80", [], nofun, nofun, nofun, nofun, by decide, by decide, by decide⟩
  have hlocal : (⟨text "::1", 8080⟩ : Endpoint).WrittenAs (text " ::1 :\t08080") :=
    ⟨text " ", text " ", text "\t", text "08080", [], by decide, by decide, by decide, nofun, by decide, by decide,
      by decide⟩
  have hlistable : ∀ endpoint ∈ [⟨text "b", 80⟩, ⟨text "::1", 8080⟩, ⟨text "b", 80⟩], Endpoint.Listable endpoint := by
    intro endpoint hmem
    have hcases : endpoint = ⟨text "b", 80⟩ ∨ endpoint = ⟨text "::1", 8080⟩ := by
      simp only [List.mem_cons, List.not_mem_nil, or_false] at hmem
      tauto
    rcases hcases with rfl | rfl
    · exact ⟨by decide, by decide, by decide, by decide⟩
    · exact ⟨by decide, by decide, by decide, by decide⟩
  rw [((list_target_denotes_set []).1 [⟨text "b", 80⟩, ⟨text "::1", 8080⟩, ⟨text "b", 80⟩] _ (text " ") (text "\n")
    (by decide) hlistable (.cons hb (.cons hlocal (.cons hb .nil))) (by decide) (by decide)).1]
  decide

/-! ## HTTP の応答 -/

/-- 応答は、EOF までの列をどのような空でない断片に切っても、同じ状態の番号、先頭部、本体、または失敗として読まれる。先頭部に続けて、断片に
分けた本体、長さを告げた本体、接続を閉じるまでの本体を書いた応答は、書いた本体を返す。 -/
theorem http_response_recovered (client : ConsulHttpClient) (socket : ConsulHttpClient.Exchange)
    (method path requestBody : Bytes) :
    (∀ chunks chunks' : List Bytes, (∀ received ∈ chunks, received ≠ []) → (∀ received ∈ chunks', received ≠ []) →
      chunks.flatten = chunks'.flatten →
      client.sendRequest { socket with incoming := fun _ => .ofChunks chunks } method path requestBody =
        client.sendRequest { socket with incoming := fun _ => .ofChunks chunks' } method path requestBody) ∧
    ∀ (head : Head) (stream body : Bytes) (chunks : List Bytes), head.Wf → head.Frames stream body →
      (∀ received ∈ chunks, received ≠ []) → chunks.flatten = head.block ++ (CRLF ++ (CRLF ++ stream)) →
      socket.connect.isOk = true → socket.setReadWriteTimeout.isOk = true →
      (socket.writeAll (client.request method path requestBody)).isOk = true →
      client.sendRequest { socket with incoming := fun _ => .ofChunks chunks } method path requestBody =
        .ok ⟨(digitsValue 10 head.code : Int), head.headers, body⟩ := by
  refine ⟨fun chunks chunks' hproper hproper' hflat => ?_, ?_⟩
  · have hsame : readResponse (.ofChunks chunks) = readResponse (.ofChunks chunks') := by
      rw [readResponse_eq (Feed.proper_ofChunks hproper), readResponse_eq (Feed.proper_ofChunks hproper'),
        Feed.data_ofChunks, Feed.data_ofChunks, Feed.failure_ofChunks, Feed.failure_ofChunks, hflat]
    simp only [ConsulHttpClient.sendRequest, hsame]
  · intro head stream body chunks hwf hframes hproper hflat hconnect htimeout hwrite
    simp only [ConsulHttpClient.sendRequest, hconnect, htimeout, hwrite, Bool.not_true, Bool.false_eq_true, ↓reduceIte]
    exact readResponse_framed hwf hframes (Feed.proper_ofChunks hproper) (Feed.failure_ofChunks chunks)
      ((Feed.data_ofChunks chunks).trans hflat)

/-- 断片に分けることを告げる先頭部。 -/
def chunkedHead : Head := ⟨text "HTTP/1.1", text "200", text "OK", [⟨text "Transfer-Encoding", text " ", text "Chunked", []⟩]⟩

theorem chunkedHead_wf : chunkedHead.Wf :=
  ⟨by decide, by decide, by decide, by decide, fun f hf => by
    obtain rfl := List.mem_singleton.mp hf
    exact ⟨by decide, by decide, by decide, by decide, by decide, by decide⟩⟩

/-- 改行を含む断片を、拡張を付けて送る。受け取る側では、改行の途中で切れている。 -/
theorem http_response_recovered_chunked :
    ConsulHttpClient.sendRequest ⟨text "h", 1⟩
        { incoming := fun _ => .ofChunks [chunkedHead.block ++ text "\r\n\r", text "\n03;a=b\r", text "\n[\r\n\r\n0\r\nx"] }
        (text "GET") (text "/") [] =
      .ok ⟨200, [(text "transfer-encoding", text "Chunked")], text "[\r\n"⟩ := by
  have hlast : ChunkedAs (text "0" ++ ([] ++ (CRLF ++ text "x"))) [] :=
    .last (text "x") (by decide) (by decide) ⟨.inl rfl, by decide⟩
  have hchunked : ChunkedAs (text "03" ++ (text ";a=b" ++ (CRLF ++ (text "[\r\n" ++ (CRLF ++ (text "0" ++ ([] ++ (CRLF ++ text "x"))))))))
      (text "[\r\n" ++ []) :=
    .chunk (by decide) (by decide) (by decide) (by decide) ⟨.inr ⟨[], text "a=b", nofun, by decide⟩, by decide⟩ hlast
  have hcoding : chunkedHead.value "transfer-encoding" = some (text "Chunked") := by decide
  have hread := (http_response_recovered ⟨text "h", 1⟩ { incoming := fun _ => .eof } (text "GET") (text "/") []).2
    chunkedHead _ _ [chunkedHead.block ++ text "\r\n\r", text "\n03;a=b\r", text "\n[\r\n\r\n0\r\nx"]
    chunkedHead_wf (.chunked hcoding (by decide) hchunked) (by decide) (by decide) rfl rfl rfl
  rw [hread]
  decide

/-! ## Consul による更新 -/

/-- どのような応答の列の後でも、失敗した更新は一覧と番号を変えず、成功した更新は、応答の項目の表す接続先の正準な一覧を置く。置き換えるのは、
前の一覧と集合が異なるときに限る。 -/
theorem refresh_is_atomic (parse : Bytes → Option Json) (serviceName : Bytes)
    (queries : List (Bool × (Bytes → Except Status ConsulHttpResponse))) (useBlockingQuery : Bool)
    (get : Bytes → Except Status ConsulHttpResponse) :
    let d := ({ serviceName := serviceName } : ConsulDiscovery).run parse queries
    let d' := (d.fetch parse useBlockingQuery get).2
    (∀ status, (d.fetch parse useBlockingQuery get).1 = .error status →
      d'.snapshot = d.snapshot ∧ d'.published = d.published ∧ d'.lastIndex = d.lastIndex) ∧
    ((d.fetch parse useBlockingQuery get).1 = .ok () →
      ∃ response entries, get (d.queryPath useBlockingQuery) = .ok response ∧ 200 ≤ response.statusCode ∧
        response.statusCode < 300 ∧ parse response.body = some (.array entries) ∧ Canonical d'.snapshot ∧
        (∀ endpoint, endpoint ∈ d'.snapshot ↔ ∃ entry ∈ entries, Advertises entry endpoint) ∧
        (d'.published = d.published ↔ ∀ endpoint, endpoint ∈ d'.snapshot ↔ endpoint ∈ d.snapshot)) := by
  intro d d'
  have hcanonical : Canonical d.snapshot := ConsulDiscovery.canonical_run queries List.Pairwise.nil
  refine ⟨fun status hfail => ?_, fun hok => ?_⟩
  · have heq : d' = d.setLastError status.message := ConsulDiscovery.fetch_of_error hfail
    rw [heq]
    exact ⟨rfl, rfl, rfl⟩
  · obtain ⟨response, endpoints, hget, hlow, hhigh, hparse, heq⟩ := ConsulDiscovery.fetch_of_ok hok
    obtain ⟨entries, hbody, hendpoints, hmem⟩ := parseEndpoints_eq_ok hparse
    have hsnapshot : d'.snapshot = endpoints :=
      (congrArg ConsulDiscovery.snapshot heq).trans (d.snapshot_setSnapshot endpoints (parseConsulIndex response))
    have hpublished : d'.published = d.published ↔ d.snapshot = endpoints := by
      have heq' : d'.published = ((d.setSnapshot endpoints (parseConsulIndex response)).setLastError []).published :=
        congrArg ConsulDiscovery.published heq
      rw [heq']
      exact d.published_setSnapshot endpoints (parseConsulIndex response)
    rw [hsnapshot, hpublished]
    refine ⟨response, entries, hget, hlow, hhigh, hbody, hendpoints, hmem, fun hsame endpoint => by rw [hsame], fun hset => ?_⟩
    exact hcanonical.ext hendpoints fun endpoint => (hset endpoint).symm

/-- 住所と番号を持つ項目。 -/
def healthEntry (host : String) (port : UInt64) : Json :=
  .object [(text "Service", .object [(text "Address", .string (text host)), (text "Port", .unsigned port)]),
    (text "Node", .object [])]

/-- 空の本体は二つの項目を、それ以外は同じ項目を逆の順に重ねて表す。 -/
def healthBodies (body : Bytes) : Option Json :=
  if body = [] then some (.array [healthEntry "a" 1, healthEntry "b" 2])
  else some (.array [healthEntry "b" 2, healthEntry "c" 70000, healthEntry "a" 1, healthEntry "b" 2])

/-- 順と重なりの異なる応答では、置き換えない。 -/
theorem refresh_is_atomic_reordered :
    let d := ({ serviceName := text "echo" } : ConsulDiscovery).run healthBodies [(false, fun _ => .ok ⟨200, [], []⟩)]
    d.published = 1 ∧ (d.fetch healthBodies true fun _ => .ok ⟨200, [], [0]⟩).2.published = d.published := by
  intro d
  refine ⟨by decide, ?_⟩
  obtain ⟨response, entries, -, -, -, -, -, -, hsame⟩ := (refresh_is_atomic healthBodies (text "echo")
    [(false, fun _ => .ok ⟨200, [], []⟩)] true fun _ => .ok ⟨200, [], [0]⟩).2 (by decide)
  have hsnapshot : (d.fetch healthBodies true fun _ => .ok ⟨200, [], [0]⟩).2.snapshot = d.snapshot := by decide
  exact hsame.mpr fun endpoint => by rw [hsnapshot]

end Xrpc.Naming
