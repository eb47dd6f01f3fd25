import PublicIntelligence.Mesh.Binding
import PublicIntelligence.Node.MeshServer
import PublicIntelligence.System.Completeness

namespace PublicIntelligence.System

open Text Encoding Json Mesh Node Scheduler

/-- The payload is a request with this nonce. -/
def Presents (env : Signing τ) (payload : QueryPayload) (nonce : Text) : Prop :=
  ∃ raw claimed, ZenohInferenceServer.extract payload = .ok raw ∧
    readRequest env.repr (.bytes raw) = .ok claimed ∧ claimed.nonce = nonce

/-- A query that comes in at a node: what Ollama is going to say to it, its payload, and the time. -/
structure Query (τ : Type) where
  ollama : OllamaClient
  payload : QueryPayload
  now : τ

/-- The node after a query. -/
def served (env : Signing τ) (server : ZenohInferenceServer τ) (q : Query τ) : ZenohInferenceServer τ :=
  (server.serve env q.ollama q.payload q.now).2

def servedAll (env : Signing τ) (server : ZenohInferenceServer τ) (qs : List (Query τ)) : ZenohInferenceServer τ :=
  qs.foldl (served env) server

/-- What asking the node's own Ollama client for the completion comes to, as JSON carries texts. -/
def direct (ollama : OllamaClient) (model prompt : Text) : Except MeshError (Text × Text) :=
  match InferenceRequest.validate model prompt false none with
  | none => .error (.node (joined (text "Node inference failed: " ++ text ollama.complaint)) 500)
  | some r =>
    match generate ollama.complaint r ollama.once with
    | .error message => .error (.node (joined message) (statusOf message))
    | .ok response => .ok (joined response.model, joined response.response)

section
variable {env : Signing τ}

theorem encodeRequest_ok (htime : env.times.Sent)
    (h : encodeRequest env nodeId model prompt stream token timestamp nonce = some bs) :
    ∃ claimed, readRequest env.repr (.bytes bs) = .ok claimed ∧ claimed.nonce = nonce := by
  simp only [encodeRequest, buildRequest, bind, Option.bind_eq_some_iff, pure, Option.some.injEq] at h
  obtain ⟨_, ⟨digest, hdigest, sig, hsig, rfl⟩, t, ht, hbs⟩ := h
  obtain ⟨hnode, hnonce, hmodel, hprompt⟩ := scalar_of_signature hdigest hsig
  obtain ⟨key, m, _, _, hhex⟩ := signature_eq_some.mp hsig
  unfold dumps at ht
  split at ht
  · cases ht
    exact ⟨_, readRequest_envelope htime hnode hmodel hprompt hnonce (hhex ▸ hexText_scalar _) hbs, rfl⟩
  · cases ht

/-- A nonce that is not in the cache is claimed. -/
theorem claimNonce_new (env : Signing τ) {c : NonceCache τ} (hpos : 0 < c.capacity) (h : nonce ∉ c.seen) (t : τ) :
    (claimNonce env (some c) nonce t).1 = .ok () := by
  have hclaim := claim_total env.times.before hpos nonce t
  rw [decide_eq_true h] at hclaim
  unfold claimNonce
  dsimp only
  split
  · rename_i he
    rw [he] at hclaim
    cases hclaim
  · rename_i he
    rw [he] at hclaim
    cases hclaim
  · rfl

/-- A request that was made for the node passes, while it is fresh and its nonce is. -/
theorem verify_sent {server : ZenohInferenceServer τ} (htime : env.times.Sent)
    (htoken : server.networkAuthToken = some token) (hne : token ≠ [])
    (hraw : encodeRequest env server.nodeId model prompt stream token timestamp nonce = some raw)
    (hfresh : env.times.stale now timestamp = false) (hnew : nonce ∉ server.nonceCache.seen) :
    (server.verify env (.bytes raw) now).1 = .ok ⟨server.nodeId, model, prompt, stream⟩ := by
  have hnone := verify_encodeRequest htime hne hraw hfresh
  obtain ⟨_, claimed, stamp, htok, _, hread, hcheck, _, hrequest⟩ := verifyRequest_ok hnone
  cases htok
  obtain ⟨claimed', hread', hnonce⟩ := encodeRequest_ok htime hraw
  cases hread.symm.trans hread'
  have hclaim := claimNonce_new env (server.capacity ▸ by decide) (hnonce ▸ hnew) stamp
  have hverify : (verifyRequest env (.bytes raw) server.nodeId server.networkAuthToken
      (some server.nonceCache) now).1 = .ok ⟨server.nodeId, model, prompt, stream⟩ := by
    obtain ⟨c, cs, rfl⟩ := List.exists_cons_of_ne_nil hne
    rw [htoken, verifyRequest, hread]
    simp only [hcheck]
    split
    · rename_i he
      rw [he] at hclaim
      cases hclaim
    · exact congrArg Except.ok hrequest.symm
  rw [server.nonceCache.verifyRequest_eq] at hverify
  exact hverify

/-- No nonce is new in a cache but the one that is claimed. -/
theorem claim_seen {c : NonceCache τ} (h : n ∈ (c.claim before nonce t).2.seen) :
    n = nonce ∨ n ∈ c.seen := by
  unfold NonceCache.claim at h
  split at h
  · exact .inr h
  · split at h
    · exact Dict.mem_set.mp h
    · split at h
      · exact .inr h
      · exact (Dict.mem_set.mp h).imp_right fun hn => (Dict.mem_pop.mp hn).2

theorem verifyRequest_seen {c after : NonceCache τ}
    (h : (verifyRequest env payload nodeId token (some c) now).2 = some after)
    (hn : n ∈ after.seen) :
    n ∈ c.seen ∨ ∃ claimed, readRequest env.repr payload = .ok claimed ∧ claimed.nonce = n := by
  obtain ⟨_, he⟩ | ⟨_, claimed, stamp, _, _, hread, _, hclaim⟩ :=
    verifyRequest_cases env payload nodeId token (some c) now
  · rw [he] at h
    cases h
    exact .inl hn
  · rw [hclaim] at h
    cases (claimNonce_some env c claimed.nonce stamp).symm.trans h
    rcases claim_seen hn with rfl | hn
    · exact .inr ⟨claimed, hread, rfl⟩
    · exact .inl hn

/-- What verifying leaves: the node is who it was, and no nonce is new but the request's. -/
theorem verify_after (env : Signing τ) (server : ZenohInferenceServer τ) (payload : QueryPayload) (now : τ) :
    (server.verify env payload now).2.nodeId = server.nodeId ∧
      (server.verify env payload now).2.networkAuthToken = server.networkAuthToken ∧
      ∀ n ∈ (server.verify env payload now).2.nonceCache.seen,
        n ∈ server.nonceCache.seen ∨ Presents env payload n := by
  unfold ZenohInferenceServer.verify
  cases hraw : ZenohInferenceServer.extract payload with
  | error e => exact ⟨rfl, rfl, fun n hn => .inl hn⟩
  | ok raw =>
    refine ⟨rfl, rfl, fun n hn => ?_⟩
    have hafter := congrArg Prod.snd (server.nonceCache.verifyRequest_eq env (.bytes raw)
      server.nodeId server.networkAuthToken now)
    refine (verifyRequest_seen hafter hn).imp_right ?_
    rintro ⟨claimed, hread, hnonce⟩
    exact ⟨raw, claimed, hraw, hread, hnonce⟩

theorem serve_after (env : Signing τ) (ollama : OllamaClient) (server : ZenohInferenceServer τ)
    (payload : QueryPayload) (now : τ) :
    (server.serve env ollama payload now).2 = (server.verify env payload now).2 := by
  unfold ZenohInferenceServer.serve
  rcases server.verify env payload now with ⟨(⟨_, _⟩ | _) | _, after⟩ <;> rfl

theorem serve_ok {server : ZenohInferenceServer τ} (ollama : OllamaClient)
    (h : (server.verify env payload now).1 = .ok request) :
    (server.serve env ollama payload now).1 = some (ZenohInferenceServer.answer ollama request) := by
  unfold ZenohInferenceServer.serve
  rcases hv : server.verify env payload now with ⟨outcome, after⟩
  rw [hv] at h
  cases h
  rfl

theorem served_spec (env : Signing τ) (server : ZenohInferenceServer τ) (q : Query τ) :
    (served env server q).nodeId = server.nodeId ∧
      (served env server q).networkAuthToken = server.networkAuthToken ∧
      ∀ n ∈ (served env server q).nonceCache.seen, n ∈ server.nonceCache.seen ∨ Presents env q.payload n := by
  rw [served, serve_after]
  exact verify_after env server q.payload q.now

/-- Over any run, the node is who it was, and a nonce in its cache was there or came in a request. -/
theorem servedAll_spec (env : Signing τ) (server : ZenohInferenceServer τ) (qs : List (Query τ)) :
    (servedAll env server qs).nodeId = server.nodeId ∧
      (servedAll env server qs).networkAuthToken = server.networkAuthToken ∧
      ∀ n ∈ (servedAll env server qs).nonceCache.seen,
        n ∈ server.nonceCache.seen ∨ ∃ q ∈ qs, Presents env q.payload n := by
  induction qs generalizing server with
  | nil => exact ⟨rfl, rfl, fun n hn => .inl hn⟩
  | cons q qs ih =>
    obtain ⟨hnode, htoken, hseen⟩ := served_spec env server q
    obtain ⟨hnode', htoken', hseen'⟩ := ih (served env server q)
    refine ⟨hnode'.trans hnode, htoken'.trans htoken, fun n hn => ?_⟩
    rcases hseen' n hn with hn | ⟨q', hq', hn⟩
    · rcases hseen n hn with hn | hn
      · exact .inl hn
      · exact .inr ⟨q, List.mem_cons_self, hn⟩
    · exact .inr ⟨q', List.mem_cons_of_mem _ hq', hn⟩

/-- A result arrives with its texts as JSON carries them. -/
theorem decode_encodeResult_joined (model response : Text) :
    ∃ b, encodeResult model response = some b ∧ decodeReply b = some (envelope [("ok", .bool true),
      ("model", .str (joined model)), ("response", .str (joined response))]) := by
  have hkeys : [text "ok", text "model", text "response"].Nodup := by decide +kernel
  obtain ⟨b, hb⟩ : ∃ b, encodeResult model response = some b := pack_total rfl
  have hsame : encodeResult (joined model) (joined response) = encodeResult model response := by
    simp only [encodeResult, pack, dumps, envelope, List.map_cons, List.map_nil, printable, printableFields, write,
      writeFields, quote, Style.ascii, escapes_joined]
  have hdecode : decodeReply b = some (envelope [("ok", .bool true), ("model", .str (joined model)),
      ("response", .str (joined response))]) := by
    rw [← hsame] at hb
    exact decode_pack ⟨hkeys, scalar_text _, trivial, scalar_text _, joined_joined model, scalar_text _,
      joined_joined response, trivial⟩ hb
  exact ⟨b, hb, hdecode⟩

theorem encodeError_sent (message : Text) {status : Nat} (hstatus : (natText status).length ≤ maxDigits) :
    ∃ b, encodeError message status = some b ∧ ∀ py model,
      (decodeReply b).map (MeshInferenceClient.answerOf py model) = some (.error (.node (joined message) status)) := by
  obtain ⟨b, hb⟩ : ∃ b, encodeError message status = some b :=
    pack_total (by simpa [envelope, printable, printableFields] using hstatus)
  refine ⟨b, hb, fun py model => ?_⟩
  rw [decode_encodeError hb]
  rfl

/-- The one reply to a request that is not streamed is read as the answer Ollama gave. -/
theorem answer_direct (ollama : OllamaClient) (nodeId model prompt : Text) :
    ∃ b, ZenohInferenceServer.answer ollama ⟨nodeId, model, prompt, false⟩ = [b] ∧ ∀ py,
      (decodeReply b).map (MeshInferenceClient.answerOf py model) = some (direct ollama model prompt) := by
  have hstatus : ∀ message, (natText (statusOf message)).length ≤ maxDigits := by
    intro message
    unfold statusOf
    split <;> decide +kernel
  unfold ZenohInferenceServer.answer direct
  dsimp only
  cases InferenceRequest.validate model prompt false none with
  | none =>
    obtain ⟨b, hb, hread⟩ := encodeError_sent (text "Node inference failed: " ++ text ollama.complaint)
      (show (natText 500).length ≤ maxDigits by decide +kernel)
    have hreply : replyUnexpected ollama.complaint = [b] := by
      rw [replyUnexpected, hb]
      rfl
    exact ⟨b, hreply, fun py => hread py model⟩
  | some r =>
    dsimp only
    rw [if_neg Bool.false_ne_true]
    unfold serveOnce
    cases generate ollama.complaint r ollama.once with
    | error message =>
      obtain ⟨b, hb, hread⟩ := encodeError_sent message (hstatus message)
      have hreply : replyFailure message = [b] := by
        rw [replyFailure, hb]
        rfl
      exact ⟨b, hreply, fun py => hread py model⟩
    | ok response =>
      obtain ⟨b, hb, hdecode⟩ := decode_encodeResult_joined response.model response.response
      refine ⟨b, by dsimp only; rw [hb], fun py => ?_⟩
      rw [hdecode]
      rfl

theorem infer_reply (c : MeshInferenceClient) (py : Builtins) (model : Text) (hopened : c.session = .opened)
    (harrival : arrival < c.firstReplyTimeout)
    (h : (decodeReply b).map (MeshInferenceClient.answerOf py model) = some answer) (ends : ℚ) :
    c.infer py model (delivery [(arrival, b)] ends) = answer := by
  obtain ⟨fields, hfields, hanswer⟩ := Option.map_eq_some_iff.mp h
  have hdrained : drained (some b) = .reply fields := by rw [drained, hfields]
  unfold MeshInferenceClient.infer MeshInferenceClient.startQuery delivery
  rw [hopened, List.map_singleton, List.singleton_append, MeshInferenceClient.firstReply, if_pos harrival, hdrained]
  exact hanswer

end

/-- A node that starts with an empty cache serves every request the Scheduler makes for it with a nonce that nobody
has presented before, as long as it is fresh, whatever came in before; and a completion comes to what asking
the node's own Ollama client for it does. -/
theorem mesh_call {env : Signing τ} (htime : env.times.Sent) (server : ZenohInferenceServer τ)
    (hempty : server.nonceCache.seen = .empty) (earlier : List (Query τ)) (token model prompt : Text) (stream : Bool)
    (timestamp now : τ) (nonce : Text) (raw : Bytes) (htoken : server.networkAuthToken = some token) (hne : token ≠ [])
    (hraw : encodeRequest env server.nodeId model prompt stream token timestamp nonce = some raw)
    (hfresh : env.times.stale now timestamp = false)
    (hnew : ∀ q ∈ earlier, ¬ Presents env q.payload nonce) (ollama : OllamaClient) :
    ((servedAll env server earlier).serve env ollama (.bytes raw) now).1 =
        some (ZenohInferenceServer.answer ollama ⟨server.nodeId, model, prompt, stream⟩) ∧
      (stream = false → ∃ b, ZenohInferenceServer.answer ollama ⟨server.nodeId, model, prompt, stream⟩ = [b] ∧
        ∀ (c : MeshInferenceClient) (py : Builtins) (arrival ends : ℚ), c.session = .opened →
          arrival < c.firstReplyTimeout →
          c.infer py model (delivery [(arrival, b)] ends) = direct ollama model prompt) := by
  obtain ⟨hnode, htok, hseen⟩ := servedAll_spec env server earlier
  have hunseen : nonce ∉ (servedAll env server earlier).nonceCache.seen := by
    intro hn
    rcases hseen nonce hn with hn | ⟨q, hq, hn⟩
    · rw [hempty] at hn
      exact Dict.not_mem_empty nonce hn
    · exact hnew q hq hn
  have hverify := verify_sent htime (htok.trans htoken) hne (hnode ▸ hraw) hfresh hunseen
  refine ⟨?_, ?_⟩
  · rw [serve_ok ollama hverify, hnode]
  · rintro rfl
    obtain ⟨b, hanswer, hread⟩ := answer_direct ollama server.nodeId model prompt
    refine ⟨b, hanswer, ?_⟩
    intro c py arrival ends hopened harrival
    exact infer_reply c py model hopened harrival (hread py) ends

/-- The signing of the hello request, with times in whole seconds. -/
def helloSeconds : Signing (Fin 4294967296) :=
  ⟨Verifier.helloSigning.sha256, Verifier.helloSigning.hmacSha256, SignedRequest.wholeSeconds,
    Verifier.helloSigning.repr⟩

def helloServer : ZenohInferenceServer (Fin 4294967296) :=
  ⟨text "node", some (text "secret"), ⟨nonceCacheSize, .empty⟩, rfl⟩

/-- Nothing, and a brace. -/
def noise : List (Query (Fin 4294967296)) :=
  [⟨ZenohInferenceServer.sampleClient, .absent, ⟨1767225590, by decide⟩⟩,
    ⟨ZenohInferenceServer.sampleClient, .bytes [0x7b], ⟨1767225595, by decide⟩⟩]

def helloRaw : Bytes :=
  (encodeRequest helloSeconds (text "node") (text "llama3") (text "hello") false (text "secret")
    ⟨1767225600, by decide⟩ (text "n1")).getD []

theorem mesh_call_hello :
    ((servedAll helloSeconds helloServer noise).serve helloSeconds ZenohInferenceServer.sampleClient
        (.bytes helloRaw) ⟨1767225605, by decide⟩).1 =
          some (ZenohInferenceServer.answer ZenohInferenceServer.sampleClient
            ⟨text "node", text "llama3", text "hello", false⟩) ∧
      (false = false → ∃ b, ZenohInferenceServer.answer ZenohInferenceServer.sampleClient
          ⟨text "node", text "llama3", text "hello", false⟩ = [b] ∧
        ∀ (c : MeshInferenceClient) (py : Builtins) (arrival ends : ℚ), c.session = .opened →
          arrival < c.firstReplyTimeout → c.infer py (text "llama3") (delivery [(arrival, b)] ends) =
            direct ZenohInferenceServer.sampleClient (text "llama3") (text "hello")) := by
  have hsome : (encodeRequest helloSeconds (text "node") (text "llama3") (text "hello") false (text "secret")
      ⟨1767225600, by decide⟩ (text "n1")).isSome = true := by decide +kernel
  obtain ⟨raw, hraw⟩ := Option.isSome_iff_exists.mp hsome
  have hsent : helloRaw = raw := by rw [helloRaw, hraw, Option.getD_some]
  rw [← hsent] at hraw
  have hnew : ∀ q ∈ noise, ¬ Presents helloSeconds q.payload (text "n1") := by
    refine List.forall_mem_cons.mpr ⟨?_, List.forall_mem_singleton.mpr ?_⟩
    · rintro ⟨raw, claimed, hextract, _⟩
      cases hextract
    · rintro ⟨raw, claimed, hextract, hread, _⟩
      cases hextract
      have hrefused : (readRequest helloSeconds.repr (.bytes [0x7b])).isOk = false := by decide +kernel
      rw [hread] at hrefused
      cases hrefused
  exact mesh_call SignedRequest.wholeSeconds_sent helloServer rfl noise (text "secret") (text "llama3") (text "hello")
    false ⟨1767225600, by decide⟩ ⟨1767225605, by decide⟩ (text "n1") helloRaw rfl (List.cons_ne_nil _ _) hraw
    (by decide) hnew ZenohInferenceServer.sampleClient

end PublicIntelligence.System
