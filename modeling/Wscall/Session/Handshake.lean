import Wscall.Session.Link

/-!
# The client's side of a handshake

On each connection the client sends its key before everything else, and derives its session key from
the first message of the server. All it encodes for the connection it encodes after that.
-/

namespace Wscall.Session
open RustStd Protocol Client

section Handshake

variable {W : Type} (L : Link W) (s : State) (g : ℕ)

/-- How far the client has got with a key exchange. -/
structure Exchanging : Prop where
  first : ∀ message, (s.opening g).head? = some message → message = (L.publicKey g).toList
  dialing : s.client.client.stage g = .dialing → s.opening g = [] ∧ s.keys g = none ∧ s.greeted g = 0
  offered : s.client.client.stage g = .offered → s.opening g ≠ [] ∧ s.keys g = none ∧ s.greeted g = 0
  agreed : s.client.client.stage g = .agreed → s.keys g ≠ none
  unkeyed : s.keys g = none → (s.opening g).length ≤ 1 ∧ ∀ k, s.client.client.tasks g k = .unspawned
  keyed : ∀ key, s.keys g = some key → s.opening g ≠ [] ∧ 0 < s.greeted g ∧
    ∃ c message, L.generation c = some g ∧ (s.server.conns c).sent.head? = some message ∧
      L.derived g message = some key

/-- The bytes are an auth request under the session codec of the connection. -/
def Greets (bytes : Bytes) : Prop :=
  ∃ credential, (L.sessionCodec s.keys g).encode L.setup.libs (L.nonce g)
    (.new (.authRequest credential)) = .ok bytes

/-- What the client's supervisor has sent, and the key it has. -/
structure Introduced : Prop where
  hellos : ∀ bytes ∈ (s.opening g).drop L.useEcdh.toNat, Greets L s g bytes
  exchange : L.useEcdh = true → Exchanging L s g

variable {L s g} {s' : State}

theorem introduced_init (L : Link W) (g : ℕ) : Introduced L (State.init L) g := by
  refine ⟨by simp [State.init], fun _ => ⟨?_, ?_, ?_, ?_, ?_, ?_⟩⟩
  · simp [State.init]
  · simp [State.init]
  · intro hstage
    cases g <;> simp [State.init, Traffic.State.init, Lifecycle.State.init, Lifecycle.State.stage,
      Lifecycle.Phase.stage] at hstage
  · intro hstage
    cases g <;> simp [State.init, Traffic.State.init, Lifecycle.State.init, Lifecycle.State.stage,
      Lifecycle.Phase.stage] at hstage
  · exact fun _ => ⟨Nat.zero_le _, fun _ => rfl⟩
  · simp [State.init]

theorem head?_of_isPrefix {α : Type} {l l' : List α} (h : l <+: l') {a : α} (ha : l.head? = some a) :
    l'.head? = some a := by
  obtain ⟨more, rfl⟩ := h
  rw [List.head?_append, ha, Option.some_or]

/-- A step that is not one of the exchange. Until the key is there it sends nothing and takes nothing
for the supervisor. -/
theorem Exchanging.kept (h : Exchanging L s g)
    (hstage : s'.client.client.stage g = s.client.client.stage g ∨ s'.client.client.stage g = .past)
    (hspawns : ∀ k, Lifecycle.Spawns s.client.client s'.client.client g k)
    (hkeys : s'.keys g = s.keys g) (hopening : s.opening g <+: s'.opening g)
    (hgreeted : s.greeted g ≤ s'.greeted g)
    (hsame : s.client.client.stage g ≠ .agreed →
      s'.opening g = s.opening g ∧ s'.greeted g = s.greeted g)
    (hsent : ∀ c, L.generation c = some g → (s.server.conns c).sent <+: (s'.server.conns c).sent) :
    Exchanging L s' g := by
  have hback : ∀ {stage : Lifecycle.Stage}, stage ≠ .past → s'.client.client.stage g = stage →
      s.client.client.stage g = stage := by
    intro stage hne hnew
    rcases hstage with hold | hold
    · exact hold.symm.trans hnew
    · exact absurd (hnew.symm.trans hold) hne
  refine ⟨fun message hmessage => ?_, fun hnew => ?_, fun hnew => ?_, fun hnew => ?_, fun hnone => ?_,
    fun key hkey => ?_⟩
  · by_cases hagreed : s.client.client.stage g = .agreed
    · obtain ⟨key, hkey⟩ := Option.ne_none_iff_exists'.mp (h.agreed hagreed)
      obtain ⟨first, hfirst⟩ := Option.isSome_iff_exists.mp (List.isSome_head?.mpr (h.keyed key hkey).1)
      have hsome := head?_of_isPrefix hopening hfirst
      rw [hmessage] at hsome
      cases hsome
      exact h.first message hfirst
    · rw [(hsame hagreed).1] at hmessage
      exact h.first message hmessage
  · have hold := hback (by simp) hnew
    obtain ⟨hsame, hsame'⟩ := hsame (by simp [hold])
    rw [hsame, hsame', hkeys]
    exact h.dialing hold
  · have hold := hback (by simp) hnew
    obtain ⟨hsame, hsame'⟩ := hsame (by simp [hold])
    rw [hsame, hsame', hkeys]
    exact h.offered hold
  · rw [hkeys]
    exact h.agreed (hback (by simp) hnew)
  · rw [hkeys] at hnone
    have hstage : s.client.client.stage g ≠ .agreed := fun hagreed => h.agreed hagreed hnone
    obtain ⟨hlen, htasks⟩ := h.unkeyed hnone
    rw [(hsame hstage).1]
    refine ⟨hlen, fun k => ?_⟩
    by_contra hnew
    exact hstage ((hspawns k).agreed (htasks k) hnew)
  · rw [hkeys] at hkey
    obtain ⟨hne, hpos, c, message, hg, hhead, hderived⟩ := h.keyed key hkey
    refine ⟨fun hnil => hne (List.prefix_nil.mp (hnil ▸ hopening)), by omega, c, message, hg, ?_, hderived⟩
    exact head?_of_isPrefix (hsent c hg) hhead

/-- The client sends its key. -/
theorem Exchanging.offer (h : Exchanging L s g) (hcore : Lifecycle.Core s.client.client)
    (hp : s.client.client.phase = .ecdhSending g) {client : Traffic.State}
    (hmove : Traffic.step (L.config s.keys) (supervisor (.ecdhSent true)) s.client = some client) :
    Exchanging L ({ s with client := client }.send g (L.publicKey g).toList) g := by
  obtain ⟨hclient, -⟩ := Traffic.lifecycle_of_step hmove
  have hnew := Lifecycle.stage_of_ecdhSent hcore hp hclient
  have hold : s.client.client.stage g = .dialing := by
    rw [(Lifecycle.stage_of_current hcore (g := g) (by rw [hp]; rfl)).2, hp]
    exact if_pos rfl
  obtain ⟨hopening, hkeys, hgreeted⟩ := h.dialing hold
  have hsent : ({ s with client := client }.send g (L.publicKey g).toList).opening g =
      [(L.publicKey g).toList] := by
    simp [State.send, hopening]
  refine ⟨fun message hmessage => ?_, fun hstage => ?_, fun _ => ⟨by simp [hsent], hkeys, hgreeted⟩,
    fun hstage => ?_, fun _ => ⟨by simp [hsent], fun k => ?_⟩, fun key hkey => ?_⟩
  · rw [hsent] at hmessage
    cases hmessage
    rfl
  · cases hnew.symm.trans hstage
  · cases hnew.symm.trans hstage
  · by_contra hborn
    have hagreed := (Lifecycle.spawns_of_step hcore hclient g k).agreed ((h.unkeyed hkeys).2 k) hborn
    cases hold.symm.trans hagreed
  · cases hkeys.symm.trans hkey

/-- The client takes the first message of the server for its key. -/
theorem Exchanging.receive (h : Exchanging L s g) (hcore : Lifecycle.Core s.client.client)
    (hp : s.client.client.phase = .ecdhReading g) {message : Server.WireMessage} {client : Traffic.State}
    (hmove : Traffic.step (L.config s.keys) (supervisor (.ecdhReceived (binary message))) s.client =
      some client) {c : String} (hg : L.generation c = some g)
    (hfirst : (s.server.conns c).sent.head? = some message)
    (hclient' : s'.client = client) (hserver : s'.server = s.server) (hopening : s'.opening = s.opening)
    (hkeys : s'.keys g = L.derived g message) (hgreeted : 0 < s'.greeted g) : Exchanging L s' g := by
  obtain ⟨hclient, -⟩ := Traffic.lifecycle_of_step hmove
  have hold : s.client.client.stage g = .offered := by
    rw [(Lifecycle.stage_of_current hcore (g := g) (by rw [hp]; rfl)).2, hp]
    exact if_pos rfl
  obtain ⟨hne, hnone, -⟩ := h.offered hold
  obtain ⟨hlen, htasks⟩ := h.unkeyed hnone
  have hfirst' : ∀ message, (s'.opening g).head? = some message → message = (L.publicKey g).toList := by
    rw [hopening]
    exact h.first
  have hkeyed : ∀ key, s'.keys g = some key → s'.opening g ≠ [] ∧ 0 < s'.greeted g ∧
      ∃ c message, L.generation c = some g ∧ (s'.server.conns c).sent.head? = some message ∧
        L.derived g message = some key := by
    intro key hkey
    rw [hopening, hserver]
    exact ⟨hne, hgreeted, c, message, hg, hfirst, hkeys.symm.trans hkey⟩
  rcases Lifecycle.stage_of_ecdhReceived hcore hp hclient with ⟨bytes, hbytes, h32, hnew⟩ | ⟨-, hnew⟩
  · have hsome : s'.keys g ≠ none := by
      rw [hkeys]
      exact Option.isSome_iff_ne_none.mp (derived_isSome hbytes h32)
    refine ⟨hfirst', fun hstage => ?_, fun hstage => ?_, fun _ => hsome, fun hno => absurd hno hsome, hkeyed⟩
    · rw [hclient', hnew] at hstage
      cases hstage
    · rw [hclient', hnew] at hstage
      cases hstage
  · refine ⟨hfirst', fun hstage => ?_, fun hstage => ?_, fun hstage => ?_, fun _ => ⟨?_, fun k => ?_⟩, hkeyed⟩
    · rw [hclient', hnew] at hstage
      cases hstage
    · rw [hclient', hnew] at hstage
      cases hstage
    · rw [hclient', hnew] at hstage
      cases hstage
    · rwa [hopening]
    · by_contra hborn
      rw [hclient'] at hborn
      have hagreed := (Lifecycle.spawns_of_step hcore hclient g k).agreed (htasks k) hborn
      cases hold.symm.trans hagreed

end Handshake

end Wscall.Session
