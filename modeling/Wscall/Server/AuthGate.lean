import Wscall.Protocol.Header
import Wscall.Server.Invariant

/-!
# The authentication gate

With an auth handler configured, nothing is done for a connection before the handler has
accepted the credential in the first binary message after the key exchange, and auth
frames that come later do nothing.
-/

namespace Wscall.Server
open RustStd Protocol

/-- The fast-reject and `decode` test the header for the same three conditions. -/
theorem fastReject_eq_none_iff (limit : ℕ) (bytes : Bytes) :
    fastReject limit bytes = none ↔ FrameCodec.headerError limit bytes = none := by
  match bytes with
  | [] | [_] | [_, _] | [_, _, _] | [_, _, _, _] => simp [fastReject, FrameCodec.headerError]
  | a :: b :: c :: d :: e :: rest =>
    have hlong : ¬ (a :: b :: c :: d :: e :: rest).length < 5 := by simp
    have hdecl : FrameCodec.declaredLen (a :: b :: c :: d :: e :: rest) =
        (fromBeBytes a b c d).toNat := rfl
    unfold fastReject FrameCodec.headerError
    rw [if_neg hlong, hdecl]
    dsimp only
    by_cases hmax : (a :: b :: c :: d :: e :: rest).length > limit
    · rw [if_pos hmax, if_pos hmax]
      split_ifs <;> simp
    · simp only [if_neg hmax, ite_eq_right_iff, reduceCtorEq, imp_false]
      omega

theorem fastReject_of_decode {libs : Libs} {codec : FrameCodec} {bytes : Bytes}
    {packet : PacketEnvelope} (h : codec.decode libs bytes = .ok packet) :
    fastReject codec.maxFrameBytes bytes = none := by
  rw [fastReject_eq_none_iff]
  by_contra hhead
  obtain ⟨e, he⟩ := Option.ne_none_iff_exists'.mp hhead
  rw [FrameCodec.decode_of_headerError he] at h
  cases h

def IsAuth : PacketBody → Prop
  | .authRequest _ | .authResponse _ _ _ => True
  | _ => False

section Gate

variable {W : Type} {setup : Setup W}

/-- Anything may be queued and called. -/
def Policy.any : Policy := ⟨fun _ => True, fun _ _ => True, fun _ h => h⟩

theorem ownItems_any : OwnItems setup Policy.any.item :=
  ⟨fun _ _ _ _ => trivial, fun _ => trivial, trivial⟩

theorem sound_run {actions : List (Action W)} {s : State}
    (h : Machine.run (step setup) actions (State.init setup) = some s) :
    Sound setup .any s := by
  refine Machine.run_invariant (fun a s s' hs hstep => ?_) h sound_init
  exact hs.step ownItems_any (fun _ _ _ _ _ _ => trivial) (fun _ _ _ _ _ => trivial) hstep

/-- A late auth frame leaves everything as it was. -/
theorem step_auth_frame {s : State} {c : String} {codec : FrameCodec} {bytes : Bytes}
    {packet : PacketEnvelope} (h : Sound setup .any s)
    (hp : (s.conns c).phase = .reading) (hc : (s.conns c).codec = some codec)
    (hd : codec.decode setup.libs bytes = .ok packet) (hauth : IsAuth packet.body) (now : ℕ)
    (random : Except String Nonce) :
    step setup (.conn c (.received (some (.binary bytes)) now random)) s =
      some (s.logged c (some (.binary bytes))) := by
  have hreject := fastReject_of_decode hd
  rw [((h.conns c).session codec hc).maxFrameBytes] at hreject
  have hdata : WscallServer.isDataMessage packet.body = false := by
    cases hb : packet.body <;> rw [hb] at hauth <;> first | rfl | exact hauth.elim
  simp only [step, hp, stepConn, hc, Option.map_some, readMessage, readBinary, hreject, hd,
    WscallServer.intake, hdata, Bool.false_eq_true, if_false]

/-- A connection is in the table, was announced, had a callback invoked or anything queued
only after the auth handler accepted what it presented; and a late auth frame changes
nothing but the record of what was received. -/
theorem auth_gate (hauth : setup.server.authHandler.isSome) {actions : List (Action W)} {s : State}
    (h : Machine.run (step setup) actions (State.init setup) = some s) :
    (∀ c, (s.clients c).isSome ∨ (∃ ctx ∈ s.connected, ctx.connectionId = c) ∨
        (∃ call ∈ s.calls, call.1 = c) ∨ (s.conns c).channel.queue ≠ [] →
      Authenticated setup (s.conns c)) ∧
    ∀ c codec bytes packet now random, (s.conns c).phase = .reading → (s.conns c).codec = some codec →
      codec.decode setup.libs bytes = .ok packet → IsAuth packet.body →
        step setup (.conn c (.received (some (.binary bytes)) now random)) s =
          some (s.logged c (some (.binary bytes))) := by
  have hsound := sound_run h
  refine ⟨fun c hc => ?_, fun c codec bytes packet now random hp hc hd ha =>
    step_auth_frame hsound hp hc hd ha now random⟩
  rcases hc with hc | ⟨ctx, hmem, rfl⟩ | ⟨call, hmem, rfl⟩ | hc
  · exact hsound.admitted c hc hauth
  · exact hsound.connected ctx hmem hauth
  · exact (hsound.calls call hmem).1 hauth
  · exact (hsound.conns c).queued hc hauth

end Gate

/-! ### One login -/

/-- serde_json on the bodies of one session: the login, its answer, the greeting and a request. -/
def loginJson : SerdeJson where
  nestingLimit := 127
  toWriter
    | .object [("k", .number (.posInt 5)), ("o", .bool true)] =>
      .ok (asBytes "\x7b\"k\":5,\"o\":true\x7d")
    | .object [("k", .number (.posInt 1)), ("i", .number (.posInt 1)), ("n", .string "system.notice"),
        ("d", .object [("connection_id", .string "c"), ("message", .string "connected")]),
        ("m", .object [("source", .string "server")]), ("e", .bool true)] =>
      .ok (asBytes "\x7b\"k\":1,\"i\":1,\"n\":\"system.notice\",\"d\":\x7b\"connection_id\":\"c\",\"message\":\"connected\"\x7d,\"m\":\x7b\"source\":\"server\"\x7d,\"e\":true\x7d")
    | _ => .error .serde
  fromSlice text :=
    if text = asBytes "\x7b\"k\":4,\"c\":\"t\"\x7d" then
      .ok (.ofTree (.object [("k", .number (.posInt 4)), ("c", .string "t")]))
    else if text = asBytes "\x7b\"k\":0,\"i\":7,\"r\":\"echo\",\"p\":null\x7d" then
      .ok (.ofTree (.object [("k", .number (.posInt 0)), ("i", .number (.posInt 7)),
        ("r", .string "echo"), ("p", .null)]))
    else .error .serde

def loginFrame : Bytes :=
  FrameCodec.frame .auth (FrameCodec.composite (asBytes "\x7b\"k\":4,\"c\":\"t\"\x7d") [])

def userContext : Map := ⟨[("user", .string "u1")], List.pairwise_singleton .., trivial, trivial⟩

/-- A plaintext server that accepts everyone as `u1`, with one route. -/
def loginServer : WscallServer Unit :=
  { WscallServer.new with
    authHandler := some fun _ _ => .returns (.ok ⟨none, userContext⟩)
    routes := fun route => if route = "echo" then some fun _ ctx => .returns (.ok ctx.params) else none }

def loginSetup : Setup Unit :=
  ⟨⟨loginJson, tagged, tagged⟩, ⟨id, fun secret _ => secret⟩, none, loginServer, []⟩

/-- From the TCP connection to the greeting. -/
def loginRun : List (Action Unit) :=
  [.conn "c" (.accept ⟨.v4 1, 1⟩ 0), .conn "c" (.upgraded true (.error "unused") ()),
    .conn "c" (.received (some (.binary loginFrame)) 0 (.error "unused")),
    .conn "c" (.authReturned () (.error "unused")), .conn "c" (.sent true ()),
    .conn "c" (.notified (.error "unused"))]

theorem auth_gate_login : ∃ s, Machine.run (step loginSetup) loginRun (State.init loginSetup) = some s ∧
    (s.clients "c").isSome ∧ Authenticated loginSetup (s.conns "c") := by
  have hrun : (Machine.run (step loginSetup) loginRun (State.init loginSetup)).any
      (fun s => (s.clients "c").isSome) = true := by decide +kernel
  obtain ⟨s, hs, hin⟩ := (Option.any_eq_true ..).mp hrun
  exact ⟨s, hs, hin, (auth_gate (by decide) hs).1 "c" (.inl hin)⟩

end Wscall.Server
